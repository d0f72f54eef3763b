import RuntimeLog.Proofs.Profile.Records
import RuntimeLog.Stream.Zstd.Decoder

/-!
# What a profile says

A log which follows the header of a profile decodes without a fault exactly if it is
spelt by records: written one behind the other, up to the end of the log or to a
trailer, behind which anything may follow.  The profile then tells what these
records say.
-/

namespace RuntimeLog
namespace Profile

namespace Record

/-- The sample of a stack: the root comes first, and notes are no frames. -/
def sample? : Record → Option Sample
  | stackTrace count entries thread memory =>
      some
        { count
          frames := entries.reverse.filterMap StackEntry.frame?
          thread
          memory
          compiling := entries.any fun entry => entry.kind == 4 }
  | _ => none

/-- The name which a record gives to an interpreter level function. -/
def virtualName? : Record → Option (UInt64 × String)
  | virtualName address name => some (address, name)
  | _ => none

/-- The name which a record gives to a native address. -/
def nativeName? : Record → Option (UInt64 × String)
  | nativeName address name => some (address, name)
  | _ => none

/-- The metadata in a record. -/
def metadata? : Record → Option (String × String)
  | metadata key value => some (key, value)
  | _ => none

/-- The start of profiling in a record. -/
def startTime? : Record → Option StartTime
  | startTime seconds micros zone => some { seconds, micros, zone := zoneOf zone }
  | _ => none

end Record

/-- Bytes which are spelt by records that can be written.  No trailer is among the
records, unless it is the last one: then any bytes follow it. -/
inductive Spells
    (words : WordSize)
    (version : UInt16)
    (bytes : Bytes) : List Record → Prop
  | endless
      {records : List Record}
      (writable : ∀ record ∈ records, record.Writable words version)
      (endless : .trailer ∉ records)
      (written : bytes = records.flatMap (Record.encode words)) :
      Spells words version bytes records
  | ended
      {records : List Record}
      (rest : Bytes)
      (writable : ∀ record ∈ records, record.Writable words version)
      (endless : .trailer ∉ records)
      (written : bytes =
        records.flatMap (Record.encode words) ++ Record.encode words .trailer ++ rest) :
      Spells words version bytes (records ++ [.trailer])

/-- A profile which tells what the records behind a header say, and nothing else. -/
structure Tells (header : Header) (records : List Record) (profile : Profile) : Prop where
  header_eq : profile.header = header
  samples_eq : profile.samples.toList = records.filterMap Record.sample?
  memory_isSome : ∀ sample ∈ profile.samples.toList,
    sample.memory.isSome ↔ memoryVersion ≤ header.version
  /-- The last name of an address counts. -/
  virtualNames_eq : ∀ address, profile.virtualNames[address]? =
    (records.filterMap Record.virtualName?).reverse.lookup address
  nativeNames_eq : ∀ address, profile.nativeNames[address]? =
    (records.filterMap Record.nativeName?).reverse.lookup address
  metadata_eq : profile.metadata.toList = records.filterMap Record.metadata?
  startTime_eq : profile.startTime = (records.filterMap Record.startTime?).getLast?
  complete_iff : profile.complete ↔ .trailer ∈ records
  decodedUntil_eq : profile.decodedUntil =
    if records = [] then 0
    else header.encode.length + (records.flatMap (Record.encode header.words)).length
  fault_eq : profile.fault = none

variable {header : Header} {markers : MarkerTable Marker} {profile : Profile} {offset : Nat}
variable {bytes : Bytes} {record : Record} {records : List Record}
variable {words : WordSize} {version : UInt16}

/-! ## What one record says -/

/-- An entry is no frame if it is a note. -/
theorem StackEntry.isNone_frame? (entry : StackEntry) :
    entry.frame?.isNone = (entry.kind == 4) := by
  rcases entry with ⟨kind, address⟩ | address
  · cases kind <;> rfl
  · rfl

theorem samples_apply (record : Record) (profile : Profile) :
    (apply record profile).samples.toList =
      profile.samples.toList ++ record.sample?.toList := by
  cases record with
  | stackTrace count entries thread memory =>
      simp [apply, Record.sample?, sampleOf, List.filterMap_reverse, StackEntry.isNone_frame?]
  | _ => simp [apply, Record.sample?, nameVirtual, nameNative]

/-- A name which is added is looked up first. -/
theorem getElem?_insert_name
    (names : AddressMap String)
    (named address : UInt64)
    (name : String) :
    (names.insert named name)[address]? = ([(named, name)].lookup address).or names[address]? := by
  by_cases same : named = address
  · subst same
    simp
  · have other : (address == named) = false := beq_eq_false_iff_ne.mpr (Ne.symm same)
    simp [Std.ExtTreeMap.getElem?_insert, List.lookup_cons, same, other]

theorem virtualNames_apply (record : Record) (profile : Profile) (address : UInt64) :
    (apply record profile).virtualNames[address]? =
      (record.virtualName?.toList.lookup address).or profile.virtualNames[address]? := by
  cases record with
  | virtualName named name => exact getElem?_insert_name profile.virtualNames named address name
  | _ => rfl

theorem nativeNames_apply (record : Record) (profile : Profile) (address : UInt64) :
    (apply record profile).nativeNames[address]? =
      (record.nativeName?.toList.lookup address).or profile.nativeNames[address]? := by
  cases record with
  | nativeName named name => exact getElem?_insert_name profile.nativeNames named address name
  | _ => rfl

theorem metadata_apply (record : Record) (profile : Profile) :
    (apply record profile).metadata.toList =
      profile.metadata.toList ++ record.metadata?.toList := by
  cases record <;> simp [apply, Record.metadata?, nameVirtual, nameNative]

theorem startTime_apply (record : Record) (profile : Profile) :
    (apply record profile).startTime = record.startTime?.or profile.startTime := by
  cases record <;> rfl

theorem complete_apply (record : Record) (profile : Profile) :
    (apply record profile).complete ↔ profile.complete ∨ record = .trailer := by
  cases record <;> simp [apply, nameVirtual, nameNative]

/-- What records say when there is one more. -/
theorem filterMap_concat {α : Type} (view : Record → Option α) (records : List Record)
    (record : Record) :
    (records ++ [record]).filterMap view = records.filterMap view ++ (view record).toList := by
  cases seen : view record <;> simp [seen]

/-- The names of one more record are looked up first. -/
theorem lookup_concat
    {names : AddressMap String}
    {view : Record → Option (UInt64 × String)}
    {address : UInt64}
    (known : names[address]? = (records.filterMap view).reverse.lookup address) :
    ((view record).toList.lookup address).or names[address]? =
      ((records ++ [record]).filterMap view).reverse.lookup address := by
  rw [filterMap_concat, List.reverse_append, List.lookup_append, known]
  cases view record <;> rfl

/-! ## What records say -/

/-- A profile without records tells nothing. -/
theorem tells_start (header : Header) : Tells header [] (start header) where
  header_eq := rfl
  samples_eq := rfl
  memory_isSome := nofun
  virtualNames_eq address := by simp [start]
  nativeNames_eq address := by simp [start]
  metadata_eq := rfl
  startTime_eq := rfl
  complete_iff := by simp [start]
  decodedUntil_eq := rfl
  fault_eq := rfl

/-- The sample of a record which can be written tells the memory in the versions
which have it. -/
theorem Record.Writable.memory_isSome
    (writable : record.Writable words version)
    {sample : Sample}
    (said : record.sample? = some sample) :
    sample.memory.isSome ↔ memoryVersion ≤ version := by
  cases record with
  | stackTrace count entries thread memory =>
      cases said
      exact writable.shaped.2
  | _ => cases said

/-- A profile tells what one more record says once the record is applied. -/
theorem Tells.apply
    (tells : Tells header records profile)
    (writable : record.Writable header.words header.version) :
    Tells header (records ++ [record])
      (format.advance (Profile.apply record profile)
        (header.encode.length +
          ((records ++ [record]).flatMap (Record.encode header.words)).length)) where
  header_eq := by
    rw [← tells.header_eq]
    cases record <;> rfl
  samples_eq := by
    rw [filterMap_concat, ← tells.samples_eq]
    exact samples_apply record profile
  memory_isSome sample member := by
    have both : sample ∈ profile.samples.toList ++ record.sample?.toList :=
      samples_apply record profile ▸ member
    rcases List.mem_append.mp both with before | last
    · exact tells.memory_isSome sample before
    · exact writable.memory_isSome (Option.mem_toList.mp last)
  virtualNames_eq address :=
    (virtualNames_apply record profile address).trans
      (lookup_concat (tells.virtualNames_eq address))
  nativeNames_eq address :=
    (nativeNames_apply record profile address).trans
      (lookup_concat (tells.nativeNames_eq address))
  metadata_eq := by
    rw [filterMap_concat, ← tells.metadata_eq]
    exact metadata_apply record profile
  startTime_eq := by
    rw [filterMap_concat, List.getLast?_append, ← tells.startTime_eq]
    refine (startTime_apply record profile).trans ?_
    cases record.startTime? <;> rfl
  complete_iff := by
    rw [List.mem_append, ← tells.complete_iff, List.mem_singleton]
    exact (complete_apply record profile).trans (or_congr_right eq_comm)
  decodedUntil_eq := (if_neg (by simp)).symm
  fault_eq := by
    rw [← tells.fault_eq]
    cases record <;> rfl

/-! ## Runs over records -/

/-- The bytes of records are those of each. -/
theorem encodeAll_script (words : WordSize) (records : List Record) :
    (script words).encodeAll records = records.flatMap (Record.encode words) := rfl

/-- Records are applied without a fault, and the profile tells what they say. -/
theorem Tells.replay
    {past : List Record}
    (tells : Tells header past profile)
    (writable : ∀ record ∈ records, record.Writable header.words header.version)
    (place : offset = header.encode.length + (past.flatMap (Record.encode header.words)).length) :
    (format.replay (script header.words) profile offset records).phase = .streaming ∧
      Tells header (past ++ records)
        (format.replay (script header.words) profile offset records).model := by
  induction records generalizing past profile offset with
  | nil =>
      rw [List.append_nil]
      exact ⟨rfl, tells⟩
  | cons record records inductionHypothesis =>
      obtain ⟨first, others⟩ := List.forall_mem_cons.mp writable
      have behind : offset + ((script header.words).encode record).length =
          header.encode.length +
            ((past ++ [record]).flatMap (Record.encode header.words)).length := by
        rw [place, List.flatMap_append, List.length_append, ← Nat.add_assoc,
          List.flatMap_singleton]
        rfl
      have applied : (format.apply (offset + 1) record).run profile =
          .ok () (Profile.apply record profile) := rfl
      rw [LogFormat.replay_of_ok applied, List.append_cons]
      have next := tells.apply first
      rw [← behind] at next
      exact inductionHypothesis next others behind

/-- Records which can be written are read back whatever follows, if no trailer is in
front of another one. -/
theorem legible_of_writable
    (known : ∀ marker meaning, markers.lookup marker = .ok meaning ↔
      meaning.IsIn header.version ∧ meaning.byte = marker)
    (incomplete : ¬ profile.complete)
    {last : List Record}
    (writable : ∀ record ∈ records ++ last, record.Writable header.words header.version)
    (endless : .trailer ∉ records)
    (single : last.length ≤ 1)
    (offset : Nat) :
    format.Legible (script header.words) { header, markers } profile offset (records ++ last) := by
  induction records generalizing profile offset with
  | nil =>
      cases last with
      | nil => trivial
      | cons record others =>
          cases List.eq_nil_of_length_eq_zero (Nat.le_zero.mp (Nat.le_of_succ_le_succ single))
          exact ⟨incomplete, judge_encode known (writable record List.mem_cons_self) profile offset,
            fun _ _ => trivial⟩
  | cons record records inductionHypothesis =>
      obtain ⟨first, others⟩ := List.forall_mem_cons.mp writable
      obtain ⟨different, still⟩ := not_or.mp (List.mem_cons.not.mp endless)
      refine ⟨incomplete, judge_encode known first profile offset, fun next applied => ?_⟩
      cases applied
      refine inductionHypothesis (fun complete => ?_) others still _
      rcases (complete_apply record profile).mp complete with before | same
      · exact incomplete before
      · exact different same.symm

/-- A trailer can be written in every version. -/
theorem writable_trailer : Record.Writable .trailer words version :=
  ⟨Or.inl (by decide), trivial, nofun⟩

/-- A log of records decodes to a profile which tells what they say, if it ends behind
them or they end with a trailer. -/
theorem tells_of_writable
    (known : ∀ marker meaning, markers.lookup marker = .ok meaning ↔
      meaning.IsIn header.version ∧ meaning.byte = marker)
    {last : List Record}
    (writable : ∀ record ∈ records ++ last, record.Writable header.words header.version)
    (endless : .trailer ∉ records)
    (single : last.length ≤ 1)
    (rest : Bytes)
    (ends : rest = [] ∨ .trailer ∈ records ++ last) :
    Tells header (records ++ last)
      (format.decodeFrom { header, markers } (start header) header.encode.length
        ((records ++ last).flatMap (Record.encode header.words) ++ rest)).2 := by
  have incomplete : ¬ (start header).complete := Bool.false_ne_true
  have legible := legible_of_writable known incomplete writable endless single
    header.encode.length
  obtain ⟨streaming, tells⟩ := (tells_start header).replay writable
    (show header.encode.length = _ from rfl)
  have decoded := LogFormat.decodeFrom_of_legible legible rest
  rw [streaming, encodeAll_script] at decoded
  rw [decoded]
  by_cases complete : format.isComplete (format.replay (script header.words) (start header)
      header.encode.length (records ++ last)).model
  · rw [LogFormat.decodeFrom_of_complete complete]
    exact tells
  · obtain rfl := ends.resolve_right fun member => complete (tells.complete_iff.mpr member)
    rw [LogFormat.decodeFrom_of_unfinished complete rfl]
    exact tells

/-- A log which is spelt by records decodes to a profile which tells what they say. -/
theorem tells_of_spells
    (known : ∀ marker meaning, markers.lookup marker = .ok meaning ↔
      meaning.IsIn header.version ∧ meaning.byte = marker)
    (spells : Spells header.words header.version bytes records) :
    Tells header records
      (format.decodeFrom { header, markers } (start header) header.encode.length bytes).2 := by
  cases spells with
  | endless writable endless written =>
      have all : ∀ record ∈ records ++ [], record.Writable header.words header.version := by
        rwa [List.append_nil]
      have tells := tells_of_writable known all endless (Nat.zero_le 1) [] (Or.inl rfl)
      rwa [List.append_nil, List.append_nil, ← written] at tells
  | @ended records rest writable endless written =>
      have all : ∀ record ∈ records ++ [.trailer],
          record.Writable header.words header.version := by
        intro record member
        rcases List.mem_append.mp member with before | last
        · exact writable record before
        · exact List.mem_singleton.mp last ▸ writable_trailer
      have tells := tells_of_writable known all endless (Nat.le_refl 1) rest
        (Or.inr (List.mem_append_right _ List.mem_cons_self))
      rwa [List.flatMap_append, List.flatMap_singleton, ← written] at tells

/-! ## Exactness -/

/-- Bytes which are spelt by records are so behind one more record which is no
trailer. -/
theorem Spells.cons
    (spells : Spells words version bytes records)
    (writable : record.Writable words version)
    (other : record ≠ .trailer) :
    Spells words version (record.encode words ++ bytes) (record :: records) := by
  cases spells with
  | endless others endless written =>
      refine .endless (List.forall_mem_cons.mpr ⟨writable, others⟩) ?_ ?_
      · exact List.mem_cons.not.mpr (not_or.mpr ⟨Ne.symm other, endless⟩)
      · rw [List.flatMap_cons, written]
  | @ended records rest others endless written =>
      rw [← List.cons_append]
      refine .ended rest (List.forall_mem_cons.mpr ⟨writable, others⟩) ?_ ?_
      · exact List.mem_cons.not.mpr (not_or.mpr ⟨Ne.symm other, endless⟩)
      · rw [List.flatMap_cons, written, List.append_assoc, List.append_assoc, List.append_assoc]

/-- A log which decodes without a fault is spelt by records. -/
theorem exists_spells_of_decodeFrom
    (known : ∀ marker meaning, markers.lookup marker = .ok meaning ↔
      meaning.IsIn header.version ∧ meaning.byte = marker)
    (incomplete : ¬ profile.complete)
    (sound : (format.decodeFrom { header, markers } profile offset bytes).2.fault = none) :
    ∃ records, Spells header.words header.version bytes records := by
  fun_induction LogFormat.decodeFrom format { header, markers } profile offset bytes with
  | case1 profile offset bytes complete => exact absurd complete incomplete
  | case2 profile offset bytes _ judged =>
      cases bytes with
      | nil => exact ⟨[], .endless (fun _ member => nomatch member) List.not_mem_nil rfl⟩
      | cons marker payload => cases sound
  | case3 => cases sound
  | case4 profile offset bytes _ marker used next judged rest inductionHypothesis =>
      obtain ⟨record, writable, written, rfl⟩ := exists_record_of_judge known judged
      by_cases last : record = .trailer
      · subst last
        have none : ∀ record ∈ ([] : List Record), record.Writable header.words header.version :=
          fun _ member => absurd member List.not_mem_nil
        exact ⟨[] ++ [.trailer], .ended (bytes.drop used) none List.not_mem_nil written⟩
      · have still : ¬ (apply record profile).complete := fun complete =>
          ((complete_apply record profile).mp complete).elim incomplete last
        obtain ⟨records, spells⟩ := inductionHypothesis still sound
        exact ⟨record :: records, written ▸ spells.cons writable last⟩

/-- Behind a written header, a log of any version and word size decodes without a
fault exactly if it is spelt by records.  The profile then tells what they say. -/
theorem tells_of_decodeSource
    [Stream.Decompressor]
    {header : Header}
    (begins : header.Begins formatFlag)
    (bytes : Bytes)
    (chunk : Nat) :
    ∃ profile,
      format.decodeSource (.ofBytes (header.encode ++ bytes)) chunk = .ok (.ok profile) ∧
      (profile.fault = none ↔
        ∃ records, Spells header.words header.version bytes records) ∧
      ∀ records, Spells header.words header.version bytes records →
        Tells header records profile := by
  obtain ⟨markers, supported, known⟩ := exists_markers begins.supported
  obtain ⟨reader, answered, stands⟩ :=
    Header.Begins.exists_stands (show header.Begins format.flag from begins) (by decide) supported
      bytes chunk
  have tells (records : List Record)
      (spells : Spells header.words header.version bytes records) :=
    tells_of_spells known spells
  refine ⟨_, ?_, ⟨?_, ?_⟩, tells⟩
  · rw [LogFormat.decodeSource, answered]
    exact congrArg Except.ok stands.readToEnd_eq
  · exact exists_spells_of_decodeFrom known Bool.false_ne_true
  · rintro ⟨records, spells⟩
    exact (tells records spells).fault_eq

/-- The header of a profile with a renamed function. -/
def renamedHeader : Header :=
  { formatFlag, version := 3, words := .four, machine := "vm" }

/-- Records in which a function gets two names, and one of two samples is taken during
compilation. -/
def renamedRecords : List Record :=
  [.metadata "argv" "x",
    .virtualName 7 "old",
    .stackTrace 1 [.frame ⟨.jitted, 9⟩, .compiling 0, .frame ⟨.code, 7⟩] 5 (some 64),
    .nativeName 9 "f",
    .startTime 1 2 [85, 84, 67, 0, 0, 0, 0, 0],
    .stackTrace 2 [] 5 (some 65),
    .virtualName 7 "new"]

attribute [local instance] Stream.Zstd.decompressor

set_option maxRecDepth 4000 in
/-- A profile with a renamed function tells its last name, and what follows the trailer
is not read. -/
theorem tells_of_renamedRecords :
    ∃ profile,
      format.decodeSource
          (.ofBytes (renamedHeader.encode ++
            (renamedRecords.flatMap (Record.encode .four) ++ Record.encode .four .trailer ++
              [0xff, 0x01]))) 16 =
        .ok (.ok profile) ∧
      profile.fault = none ∧
      profile.samples.toList =
        [{ count := 1, frames := [⟨.code, 7⟩, ⟨.jitted, 9⟩], thread := 5, memory := some 64
           compiling := true },
         { count := 2, frames := [], thread := 5, memory := some 65, compiling := false }] ∧
      profile.virtualNames[(7 : UInt64)]? = some "new" ∧
      profile.nativeNames[(7 : UInt64)]? = none ∧
      profile.complete ∧
      profile.decodedUntil = 142 := by
  have begins : renamedHeader.Begins formatFlag := ⟨rfl, ⟨by decide, by decide⟩, by decide⟩
  have spells : Spells renamedHeader.words renamedHeader.version
      (renamedRecords.flatMap (Record.encode .four) ++ Record.encode .four .trailer ++
        [0xff, 0x01]) (renamedRecords ++ [.trailer]) :=
    .ended [0xff, 0x01] (by decide) (by decide) rfl
  obtain ⟨profile, decoded, accepted, tells⟩ := tells_of_decodeSource begins
    (renamedRecords.flatMap (Record.encode .four) ++ Record.encode .four .trailer ++
      [0xff, 0x01]) 16
  have told := tells _ spells
  refine ⟨profile, decoded, accepted.mpr ⟨_, spells⟩, told.samples_eq.trans rfl,
    (told.virtualNames_eq 7).trans (by decide), (told.nativeNames_eq 7).trans (by decide),
    told.complete_iff.mpr (by decide), told.decodedUntil_eq.trans (by decide)⟩

end Profile
end RuntimeLog
