import Mathlib.Algebra.Group.Nat.Defs
import RuntimeLog.Proofs.Reading.Resumption
import RuntimeLog.Reading
import RuntimeLog.Writer

/-!
# Exact readings

Every reading of a field accepts exactly the bytes which the field of the same
name is written as, and no two values share their bytes.  Readings one behind the
other accept exactly the bytes of the one behind those of the other.
-/

namespace RuntimeLog

/-! ## Numbers -/

namespace LittleEndian

/-- Reading back what was written loses only the bytes above the width. -/
theorem decode_encode (width number : Nat) :
    decode (encode width number) = number % 256 ^ width := by
  induction width generalizing number with
  | zero => simp [encode, decode, Nat.mod_one]
  | succ width inductionHypothesis =>
      have low : (UInt8.ofNat number).toNat = number % 256 := UInt8.toNat_ofNat'
      rw [encode, decode, inductionHypothesis, low, Nat.pow_succ,
        Nat.mul_comm (256 ^ width) 256, Nat.mod_mul]

/-- A byte string of some width denotes a number which fits that width. -/
theorem decode_lt (bytes : Bytes) : decode bytes < 256 ^ bytes.length := by
  induction bytes with
  | nil => simp [decode]
  | cons byte rest inductionHypothesis =>
      have byteBound := byte.toNat_lt
      simp only [decode, List.length_cons, Nat.pow_succ]
      omega

/-- Writing what was read gives the bytes back. -/
theorem encode_decode (bytes : Bytes) : encode bytes.length (decode bytes) = bytes := by
  induction bytes with
  | nil => rfl
  | cons byte rest inductionHypothesis =>
      have byteBound := byte.toNat_lt
      have low : UInt8.ofNat (byte.toNat + 256 * decode rest) = byte := by
        apply UInt8.toNat_inj.mp
        rw [UInt8.toNat_ofNat']
        omega
      have high : (byte.toNat + 256 * decode rest) / 256 = decode rest := by omega
      rw [List.length_cons, decode, encode, low, high, inductionHypothesis]

/-- The bytes above the width are not written. -/
theorem encode_mod (width number : Nat) :
    encode width (number % 256 ^ width) = encode width number := by
  have back := encode_decode (encode width number)
  rwa [length_encode, decode_encode] at back

/-- Some bytes are the writing of a number if they are as many as its width and
denote it. -/
theorem eq_encode_iff {width number : Nat} {bytes : Bytes} :
    bytes = encode width number ∧ number < 256 ^ width ↔
      bytes.length = width ∧ decode bytes = number := by
  constructor
  · rintro ⟨rfl, fits⟩
    exact ⟨length_encode width number, by rw [decode_encode, Nat.mod_eq_of_lt fits]⟩
  · rintro ⟨rfl, rfl⟩
    exact ⟨(encode_decode bytes).symm, decode_lt bytes⟩

end LittleEndian

namespace Text

/-- The bytes of a text are those which encode it. -/
theorem ofUtf8?_eq_some_iff {bytes : Bytes} {text : String} :
    ofUtf8? bytes = some text ↔ bytes = toUtf8 text := by
  constructor
  · intro found
    unfold ofUtf8? String.fromUTF8? at found
    split at found
    · cases found
      rfl
    · cases found
  · rintro rfl
    exact ofUtf8?_toUtf8 text

end Text

/-! ## Runs -/

/-- An outcome behind some bytes which were taken before. -/
def Outcome.behind {ε α : Type} (count : Nat) : Outcome ε α → Outcome ε α
  | complete value used => complete value (count + used)
  | incomplete => incomplete
  | malformed cause used => malformed cause (count + used)

namespace Reading

variable {ε α β : Type}

/-- What a reading makes of some bytes does not depend on how it got there. -/
theorem outcome_advanceFrom
    (start used : Nat)
    (reading : Reading ε α)
    (bytes : Bytes) :
    (reading.advanceFrom start used bytes).outcome =
      (reading.run (start + used) bytes).behind used := by
  unfold run Progress.start Progress.advance
  have shifted (reading : Reading ε α) (count : Nat) (bytes : Bytes) :
      (reading.advanceFrom start (used + count) bytes).outcome =
        (reading.advanceFrom (start + used) count bytes).outcome.behind used := by
    induction reading generalizing count bytes with
    | done value => rfl
    | failed cause => rfl
    | take piece next inductionHypothesis =>
        simp only [advanceFrom, Bytes.splitExactly_eq]
        by_cases enough : piece ≤ bytes.length
        · simp only [enough, if_true, Nat.add_assoc]
          exact inductionHypothesis _ _ _
        · simp only [enough, if_false]
          rfl
    | locate next inductionHypothesis =>
        simp only [advanceFrom, ← Nat.add_assoc]
        exact inductionHypothesis _ _ _
  exact shifted reading 0 bytes

theorem run_done (start : Nat) (bytes : Bytes) (value : α) :
    (done value : Reading ε α).run start bytes = .complete value 0 := rfl

theorem run_take_eq
    (start count : Nat)
    (next : Bytes → Reading ε α)
    (bytes : Bytes) :
    (take count next).run start bytes =
      if count ≤ bytes.length then
        ((next (bytes.take count)).run (start + count) (bytes.drop count)).behind count
      else .incomplete := by
  rw [run, Progress.start, Progress.advance, advanceFrom, Bytes.splitExactly_eq]
  by_cases enough : count ≤ bytes.length
  · simp only [enough, if_true]
    rw [Nat.zero_add, outcome_advanceFrom]
  · simp only [enough, if_false]
    rfl

theorem run_locate (start : Nat) (next : Nat → Reading ε α) (bytes : Bytes) :
    (locate next).run start bytes = (next start).run start bytes := rfl

/-- Readings one behind the other are run one behind the other. -/
theorem run_bind
    (start : Nat)
    (reading : Reading ε α)
    (next : α → Reading ε β)
    (bytes : Bytes) :
    (reading >>= next).run start bytes =
      match reading.run start bytes with
      | .complete value used =>
          ((next value).run (start + used) (bytes.drop used)).behind used
      | .incomplete => .incomplete
      | .malformed cause used => .malformed cause used := by
  have behind_behind (first second : Nat) (outcome : Outcome ε β) :
      (outcome.behind second).behind first = outcome.behind (first + second) := by
    cases outcome <;> simp [Outcome.behind, Nat.add_assoc]
  have behind_zero (outcome : Outcome ε β) : outcome.behind 0 = outcome := by
    cases outcome <;> simp [Outcome.behind]
  induction reading generalizing start bytes with
  | done value =>
      rw [done_bind, run_done]
      dsimp only
      rw [behind_zero, Nat.add_zero, List.drop_zero]
  | failed cause => rfl
  | take count more inductionHypothesis =>
      rw [take_bind, run_take_eq, run_take_eq]
      by_cases enough : count ≤ bytes.length
      · simp only [enough, if_true, inductionHypothesis]
        cases (more (bytes.take count)).run (start + count) (bytes.drop count) with
        | complete value used =>
            simp only [Outcome.behind.eq_1, behind_behind, List.drop_drop, Nat.add_assoc]
        | incomplete => rfl
        | malformed cause used => rfl
      · simp only [enough, if_false]
  | locate more inductionHypothesis =>
      rw [locate_bind, run_locate, run_locate]
      exact inductionHypothesis start start bytes

/-! ## Readings which take all bytes -/

/-- A reading which takes all of some bytes, and makes a value of them. -/
def Reads (reading : Reading ε α) (start : Nat) (bytes : Bytes) (value : α) : Prop :=
  reading.run start bytes = .complete value bytes.length

variable {reading : Reading ε α} {start : Nat} {bytes rest : Bytes} {value : α}

/-- Bytes which are read are read in the same way in front of others. -/
theorem Reads.run_append (reads : reading.Reads start bytes value) (rest : Bytes) :
    reading.run start (bytes ++ rest) = .complete value bytes.length := by
  rw [Reading.run_append (by rw [reads]; simp), reads]

/-- What is read behind bytes which are read. -/
theorem Reads.run_bind
    (reads : reading.Reads start bytes value)
    (next : α → Reading ε β)
    (rest : Bytes) :
    (reading >>= next).run start (bytes ++ rest) =
      ((next value).run (start + bytes.length) rest).behind bytes.length := by
  rw [Reading.run_bind, reads.run_append]
  dsimp only
  rw [List.drop_left]

/-- A value is made of the bytes which were taken. -/
theorem reads_of_run
    {used : Nat}
    (complete : reading.run start bytes = .complete value used) :
    reading.Reads start (bytes.take used) value := by
  have bound := used_le_of_run complete
  rw [Reads, run_take complete (Nat.le_refl used), List.length_take, Nat.min_eq_left bound]

/-- A value is read from the front of some bytes exactly if it is made of the bytes
which it took. -/
theorem run_eq_complete_iff {used : Nat} :
    reading.run start bytes = .complete value used ↔
      used ≤ bytes.length ∧ reading.Reads start (bytes.take used) value := by
  constructor
  · intro complete
    exact ⟨used_le_of_run complete, reads_of_run complete⟩
  · rintro ⟨bound, reads⟩
    have whole := reads.run_append (bytes.drop used)
    rw [List.take_append_drop, List.length_take, Nat.min_eq_left bound] at whole
    exact whole

/-- A reading asks for more as long as some of the bytes which it takes are missing. -/
theorem Reads.run_cut
    (reads : reading.Reads start bytes value)
    {count : Nat}
    (short : count < bytes.length) :
    reading.run start (bytes.take count) = .incomplete := by
  refine Classical.byContradiction fun ended => ?_
  have again := Reading.run_append ended (bytes.drop count)
  rw [List.take_append_drop, reads] at again
  have bound := used_le_of_run again.symm
  rw [List.length_take] at bound
  omega

theorem reads_done {other : α} :
    (done value : Reading ε α).Reads start bytes other ↔ other = value ∧ bytes = [] := by
  rw [Reads, run_done]
  constructor
  · intro complete
    cases bytes <;> simp_all
  · rintro ⟨rfl, rfl⟩
    rfl

theorem not_reads_failed {cause : ε} :
    ¬ (failed cause : Reading ε α).Reads start bytes value := by
  intro reads
  cases reads

/-- Readings one behind the other read bytes one behind the other. -/
theorem reads_bind {next : α → Reading ε β} {result : β} :
    (reading >>= next).Reads start bytes result ↔
      ∃ value first second, bytes = first ++ second ∧ reading.Reads start first value ∧
        (next value).Reads (start + first.length) second result := by
  constructor
  · intro reads
    rw [Reads, run_bind] at reads
    split at reads
    · rename_i value used complete
      have bound := used_le_of_run complete
      refine ⟨value, bytes.take used, bytes.drop used, (List.take_append_drop used bytes).symm,
        reads_of_run complete, ?_⟩
      rw [List.length_take, Nat.min_eq_left bound, Reads]
      cases further : (next value).run (start + used) (bytes.drop used) with
      | complete other more =>
          rw [further] at reads
          simp only [Outcome.behind, Outcome.complete.injEq] at reads
          rw [List.length_drop, reads.1]
          congr 1
          omega
      | incomplete =>
          rw [further] at reads
          cases reads
      | malformed cause more =>
          rw [further] at reads
          cases reads
    · cases reads
    · cases reads
  · rintro ⟨value, first, second, rfl, before, behind⟩
    rw [Reads, before.run_bind, behind]
    simp [Outcome.behind]

theorem reads_map {change : α → β} {result : β} :
    (change <$> reading).Reads start bytes result ↔
      ∃ value, reading.Reads start bytes value ∧ result = change value := by
  have unfolded : change <$> reading = reading >>= fun value => done (change value) := rfl
  rw [unfolded, reads_bind]
  constructor
  · rintro ⟨value, first, second, rfl, reads, last⟩
    obtain ⟨rfl, rfl⟩ := reads_done.mp last
    exact ⟨value, by rwa [List.append_nil], rfl⟩
  · rintro ⟨value, reads, rfl⟩
    exact ⟨value, bytes, [], (List.append_nil bytes).symm, reads, reads_done.mpr ⟨rfl, rfl⟩⟩

/-! ## Fields -/

theorem reads_bytes {count : Nat} {piece : Bytes} :
    (Reading.bytes count : Reading ε Bytes).Reads start bytes piece ↔
      piece.length = count ∧ bytes = piece := by
  rw [Reads, Reading.bytes, run_take_eq]
  constructor
  · intro complete
    split at complete
    · simp only [run_done, Outcome.behind, Nat.add_zero, Outcome.complete.injEq] at complete
      obtain ⟨rfl, all⟩ := complete
      simp [all]
    · cases complete
  · rintro ⟨rfl, rfl⟩
    simp [run_done, Outcome.behind]

theorem reads_natural {width number : Nat} :
    (natural width : Reading ε Nat).Reads start bytes number ↔
      bytes = LittleEndian.encode width number ∧ number < 256 ^ width := by
  have unfolded : (natural width : Reading ε Nat) = LittleEndian.decode <$> Reading.bytes width :=
    rfl
  rw [unfolded, reads_map, LittleEndian.eq_encode_iff]
  simp only [reads_bytes]
  constructor
  · rintro ⟨piece, ⟨length, rfl⟩, rfl⟩
    exact ⟨length, rfl⟩
  · rintro ⟨length, rfl⟩
    exact ⟨bytes, ⟨length, rfl⟩, rfl⟩

/-- A machine word is read from the bytes of its number. -/
theorem reads_word
    {width : Nat}
    {ofNat : Nat → α}
    {toNat : α → Nat}
    (back : ∀ value, ofNat (toNat value) = value)
    (forth : ∀ number, number < 256 ^ width → toNat (ofNat number) = number) :
    (ofNat <$> natural width : Reading ε α).Reads start bytes value ↔
      bytes = LittleEndian.encode width (toNat value) ∧ toNat value < 256 ^ width := by
  simp only [reads_map, reads_natural]
  constructor
  · rintro ⟨number, ⟨written, fits⟩, rfl⟩
    rw [forth number fits]
    exact ⟨written, fits⟩
  · rintro ⟨written, fits⟩
    exact ⟨toNat value, ⟨written, fits⟩, (back value).symm⟩

theorem reads_u8 {value : UInt8} :
    (u8 : Reading ε UInt8).Reads start bytes value ↔ bytes = [value] := by
  have single : LittleEndian.encode 1 value.toNat = [value] := by simp [LittleEndian.encode]
  have fits : value.toNat < 256 ^ 1 := value.toNat_lt
  rw [u8, reads_word (fun _ => UInt8.ofNat_toNat) fun _ fits => UInt8.toNat_ofNat_of_lt' fits,
    single]
  exact and_iff_left fits

theorem reads_u16 {value : UInt16} :
    (u16 : Reading ε UInt16).Reads start bytes value ↔
      bytes = LittleEndian.encode 2 value.toNat := by
  have fits : value.toNat < 256 ^ 2 := value.toNat_lt
  rw [u16, reads_word (fun _ => UInt16.ofNat_toNat) fun _ fits => UInt16.toNat_ofNat_of_lt' fits]
  exact and_iff_left fits

theorem reads_u32 {value : UInt32} :
    (u32 : Reading ε UInt32).Reads start bytes value ↔
      bytes = LittleEndian.encode 4 value.toNat := by
  have fits : value.toNat < 256 ^ 4 := value.toNat_lt
  rw [u32, reads_word (fun _ => UInt32.ofNat_toNat) fun _ fits => UInt32.toNat_ofNat_of_lt' fits]
  exact and_iff_left fits

theorem reads_u64 {value : UInt64} :
    (u64 : Reading ε UInt64).Reads start bytes value ↔
      bytes = LittleEndian.encode 8 value.toNat := by
  have fits : value.toNat < 256 ^ 8 := value.toNat_lt
  rw [u64, reads_word (fun _ => UInt64.ofNat_toNat) fun _ fits => UInt64.toNat_ofNat_of_lt' fits]
  exact and_iff_left fits

theorem reads_address {words : WordSize} {value : UInt64} :
    (address words : Reading ε UInt64).Reads start bytes value ↔
      bytes = LittleEndian.encode words.bytes value.toNat ∧ value.toNat < 256 ^ words.bytes := by
  apply reads_word (fun _ => UInt64.ofNat_toNat)
  intro number fits
  have within : 256 ^ words.bytes ≤ UInt64.size := by cases words <;> decide
  exact UInt64.toNat_ofNat_of_lt' (Nat.lt_of_lt_of_le fits within)

theorem reads_blob {piece : Bytes} :
    (blob : Reading ε Bytes).Reads start bytes piece ↔
      bytes = LittleEndian.encode 4 piece.length ++ piece ∧ piece.length < 256 ^ 4 := by
  rw [blob, reads_bind]
  simp only [reads_natural, reads_bytes]
  constructor
  · rintro ⟨length, first, second, rfl, ⟨rfl, fits⟩, rfl, rfl⟩
    exact ⟨rfl, fits⟩
  · rintro ⟨rfl, fits⟩
    exact ⟨_, _, _, rfl, ⟨rfl, fits⟩, rfl, rfl⟩

theorem reads_text {invalidAt : Nat → ε} {value : String} :
    (text invalidAt).Reads start bytes value ↔
      bytes = LittleEndian.encode 4 (Text.toUtf8 value).length ++ Text.toUtf8 value ∧
        (Text.toUtf8 value).length < 256 ^ 4 := by
  rw [Reads, text, run_locate]
  change Reads (blob >>= _) start bytes value ↔ _
  rw [reads_bind]
  simp only [reads_blob]
  constructor
  · rintro ⟨piece, first, second, rfl, ⟨rfl, fits⟩, decoded⟩
    split at decoded
    · rename_i text found
      obtain ⟨rfl, rfl⟩ := reads_done.mp decoded
      cases Text.ofUtf8?_eq_some_iff.mp found
      exact ⟨List.append_nil _, fits⟩
    · exact absurd decoded not_reads_failed
  · rintro ⟨rfl, fits⟩
    refine ⟨_, _, [], (List.append_nil _).symm, ⟨rfl, fits⟩, ?_⟩
    rw [Text.ofUtf8?_toUtf8]
    exact reads_done.mpr ⟨rfl, rfl⟩

/-- Items which are read one behind the other. -/
theorem reads_repeated
    {item : Reading ε α}
    {valid : α → Prop}
    {encode : α → Bytes}
    (exact_item : ∀ start bytes value,
      item.Reads start bytes value ↔ valid value ∧ bytes = encode value)
    {count : Nat}
    {values : List α} :
    (repeated count item).Reads start bytes values ↔
      values.length = count ∧ (∀ value ∈ values, valid value) ∧ bytes = values.flatMap encode := by
  have behind (found : List α) : ∀ (count start : Nat) (bytes : Bytes) (values : List α),
      (repeatedFrom item count found).Reads start bytes values ↔
        ∃ more, values = found.reverse ++ more ∧ more.length = count ∧
          (∀ value ∈ more, valid value) ∧ bytes = more.flatMap encode := by
    intro count
    induction count generalizing found with
    | zero =>
        intro start bytes values
        rw [repeatedFrom, reads_done]
        constructor
        · rintro ⟨rfl, rfl⟩
          exact ⟨[], by simp⟩
        · rintro ⟨more, rfl, none, _, rfl⟩
          cases List.length_eq_zero_iff.mp none
          simp
    | succ count inductionHypothesis =>
        intro start bytes values
        rw [repeatedFrom]
        change Reads (item >>= _) start bytes values ↔ _
        simp only [reads_bind, exact_item, inductionHypothesis]
        constructor
        · rintro ⟨value, _, _, rfl, ⟨good, rfl⟩, more, rfl, rfl, others, rfl⟩
          refine ⟨value :: more, by simp, rfl, ?_, rfl⟩
          exact List.forall_mem_cons.mpr ⟨good, others⟩
        · rintro ⟨more, rfl, length, good, rfl⟩
          obtain ⟨value, more, rfl⟩ := List.exists_cons_of_length_eq_add_one length
          obtain ⟨first, others⟩ := List.forall_mem_cons.mp good
          exact ⟨value, _, _, rfl, ⟨first, rfl⟩, more, by simp, by simpa using length, others, rfl⟩
  rw [repeated, behind []]
  simp

end Reading

/-! ## Written fields -/

namespace Field

/-- A field whose value is read back from its bytes: an address which is no wider
than the words of the stream, or bytes whose number fits into their length. -/
def Fits (words : WordSize) : Field → Prop
  | address value => value.toNat < 256 ^ words.bytes
  | blob value => value.length < 256 ^ 4
  | text value => (Text.toUtf8 value).length < 256 ^ 4
  | _ => True

instance (words : WordSize) (field : Field) : Decidable (field.Fits words) := by
  cases field <;> unfold Fits <;> infer_instance

theorem encodeAll_append (words : WordSize) (first second : List Field) :
    encodeAll words (first ++ second) = encodeAll words first ++ encodeAll words second :=
  List.flatMap_append

/-- The bytes of the fields of several entries are those of one entry behind the
other. -/
theorem encodeAll_flatMap
    {α : Type}
    (words : WordSize)
    (fields : α → List Field)
    (entries : List α) :
    encodeAll words (entries.flatMap fields) =
      entries.flatMap fun entry => encodeAll words (fields entry) :=
  List.flatMap_assoc

end Field

namespace Reading

variable {ε α β : Type} {words : WordSize}

/-- A reading which makes a value of some bytes, wherever they stand. -/
def Accepts (reading : Reading ε α) (bytes : Bytes) (value : α) : Prop :=
  ∀ start, reading.Reads start bytes value

theorem accepts_done (value : α) : (done value : Reading ε α).Accepts [] value :=
  fun _ => reads_done.mpr ⟨rfl, rfl⟩

/-- Readings one behind the other accept bytes one behind the other. -/
theorem Accepts.bind
    {reading : Reading ε α}
    {next : α → Reading ε β}
    {first second : Bytes}
    {value : α}
    {result : β}
    (before : reading.Accepts first value)
    (behind : (next value).Accepts second result) :
    (reading >>= next).Accepts (first ++ second) result :=
  fun start => reads_bind.mpr ⟨value, first, second, rfl, before start, behind _⟩

/-- A reading whose value is changed accepts what it accepted before. -/
theorem Accepts.map
    {reading : Reading ε α}
    {bytes : Bytes}
    {value : α}
    (accepts : reading.Accepts bytes value)
    (change : α → β) :
    (change <$> reading).Accepts bytes (change value) :=
  fun start => reads_map.mpr ⟨value, accepts start, rfl⟩

theorem accepts_u8 (value : UInt8) :
    (u8 : Reading ε UInt8).Accepts ((Field.u8 value).encode words) value :=
  fun _ => reads_u8.mpr rfl

theorem accepts_u16 (value : UInt16) :
    (u16 : Reading ε UInt16).Accepts ((Field.u16 value).encode words) value :=
  fun _ => reads_u16.mpr rfl

theorem accepts_u64 (value : UInt64) :
    (u64 : Reading ε UInt64).Accepts ((Field.u64 value).encode words) value :=
  fun _ => reads_u64.mpr rfl

theorem accepts_address {value : UInt64} (fits : (Field.address value).Fits words) :
    (address words : Reading ε UInt64).Accepts ((Field.address value).encode words) value :=
  fun _ => reads_address.mpr ⟨rfl, fits⟩

theorem accepts_blob {value : Bytes} (fits : (Field.blob value).Fits words) :
    (blob : Reading ε Bytes).Accepts ((Field.blob value).encode words) value :=
  fun _ => reads_blob.mpr ⟨rfl, fits⟩

theorem accepts_text
    {value : String}
    {invalidAt : Nat → ε}
    (fits : (Field.text value).Fits words) :
    (text invalidAt).Accepts ((Field.text value).encode words) value :=
  fun _ => reads_text.mpr ⟨rfl, fits⟩

/-- Items which are accepted one by one are accepted one behind the other. -/
theorem accepts_repeated
    {item : Reading ε α}
    {encode : α → Bytes}
    {values : List α}
    (accepts : ∀ value ∈ values, item.Accepts (encode value) value) :
    (repeated values.length item).Accepts (values.flatMap encode) values := by
  have behind (found : List α) :
      (repeatedFrom item values.length found).Accepts (values.flatMap encode)
        (found.reverse ++ values) := by
    induction values generalizing found with
    | nil =>
        rw [List.append_nil]
        exact accepts_done _
    | cons value values inductionHypothesis =>
        obtain ⟨first, others⟩ := List.forall_mem_cons.mp accepts
        have rest := inductionHypothesis others (value :: found)
        rw [List.reverse_cons, List.append_assoc] at rest
        exact first.bind rest
  exact behind []

end Reading
end RuntimeLog
