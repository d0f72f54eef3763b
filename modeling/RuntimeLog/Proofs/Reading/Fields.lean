import RuntimeLog.Cursor
import RuntimeLog.Proofs.Reading.Exactness

/-!
# Fields one behind the other

A cursor takes fields as readings of the same sorts read them.  Fields which a writer
wrote one behind the other are read back from a cursor, whatever follows them.  Where
their bytes end early, the fields which are there completely are read, and the first
other one asks for more and leaves the cursor in front of it.
-/

namespace RuntimeLog

/-- What a cursor can be asked for. -/
inductive FieldSort where
  | u8
  | u16
  | u32
  | u64
  | address
  | blob
  | text
  /-- As many bytes as told. -/
  | bytes (count : Nat)
deriving DecidableEq, Repr

namespace FieldSort

/-- The reading of a field of some sort. -/
def reading (words : WordSize) : FieldSort → Reading ReadError Field
  | u8 => .u8 <$> Reading.u8
  | u16 => .u16 <$> Reading.u16
  | u32 => .u32 <$> Reading.u32
  | u64 => .u64 <$> Reading.u64
  | address => .address <$> Reading.address words
  | blob => .blob <$> Reading.blob
  | text => .text <$> Reading.text .invalidUtf8
  | bytes count => .raw <$> Reading.bytes count

end FieldSort

namespace Field

variable {words : WordSize} {field : Field}

/-- The sort of a field. -/
def sort : Field → FieldSort
  | u8 _ => .u8
  | u16 _ => .u16
  | u32 _ => .u32
  | u64 _ => .u64
  | address _ => .address
  | blob _ => .blob
  | text _ => .text
  | raw value => .bytes value.length

/-- A field whose bytes are fewer than 2³² if their number is written in front of
them. -/
def Short : Field → Prop
  | blob value => value.length < 2 ^ 32
  | text value => (Text.toUtf8 value).length < 2 ^ 32
  | _ => True

instance (field : Field) : Decidable field.Short :=
  match field with
  | blob value => Nat.decLt value.length (2 ^ 32)
  | text value => Nat.decLt (Text.toUtf8 value).length (2 ^ 32)
  | u8 _ | u16 _ | u32 _ | u64 _ | address _ | raw _ => .isTrue trivial

/-- What is left of a field on a stream: of an address, the bytes of a word. -/
def kept : WordSize → Field → Field
  | .four, address value => address (value % 0x100000000)
  | _, field => field

theorem sort_kept (words : WordSize) (field : Field) : (field.kept words).sort = field.sort := by
  cases words <;> cases field <;> rfl

/-- The bytes which are dropped from a field are not written. -/
theorem encode_kept (words : WordSize) (field : Field) :
    (field.kept words).encode words = field.encode words := by
  cases words with
  | eight => cases field <;> rfl
  | four =>
      cases field with
      | address value =>
          have low : (value % 0x100000000).toNat = value.toNat % 256 ^ 4 := by
            rw [UInt64.toNat_mod]
            rfl
          change LittleEndian.encode 4 (value % 0x100000000).toNat =
            LittleEndian.encode 4 value.toNat
          rw [low, LittleEndian.encode_mod]
      | _ => rfl

/-- What is left of a short field fits. -/
theorem Short.fits_kept (short : field.Short) (words : WordSize) :
    (field.kept words).Fits words := by
  cases field with
  | address value =>
      cases words with
      | eight => exact value.toNat_lt
      | four =>
          change (value % 0x100000000).toNat < 256 ^ 4
          rw [UInt64.toNat_mod]
          exact Nat.mod_lt _ (by decide)
  | blob value => cases words <;> exact short
  | text value => cases words <;> exact short
  | _ => cases words <;> trivial

/-- A field which fits is read back from its bytes. -/
theorem accepts_reading (fits : field.Fits words) :
    (field.sort.reading words).Accepts (field.encode words) field := by
  cases field with
  | u8 value => exact (Reading.accepts_u8 value).map u8
  | u16 value => exact (Reading.accepts_u16 value).map u16
  | u32 value => exact Reading.Accepts.map (fun _ => Reading.reads_u32.mpr rfl) u32
  | u64 value => exact (Reading.accepts_u64 value).map u64
  | address value => exact (Reading.accepts_address fits).map address
  | blob value => exact (Reading.accepts_blob fits).map blob
  | text value => exact (Reading.accepts_text fits).map text
  | raw value => exact Reading.Accepts.map (fun _ => Reading.reads_bytes.mpr ⟨rfl, rfl⟩) raw

/-- A short field is read back, as far as it is left. -/
theorem Short.accepts_kept (short : field.Short) (words : WordSize) :
    (field.sort.reading words).Accepts (field.encode words) (field.kept words) := by
  have accepts := accepts_reading (short.fits_kept words)
  rwa [sort_kept, encode_kept] at accepts

end Field

namespace Writer

/-- A writer which has written some fields and nothing else. -/
def ofFields (words : WordSize) (fields : List Field) : Writer :=
  (empty words).pushAll fields

theorem toBytes_ofFields (words : WordSize) (fields : List Field) :
    (ofFields words fields).toBytes = Field.encodeAll words fields :=
  toBytes_pushAll _ _

theorem length_ofFields (words : WordSize) (fields : List Field) :
    (ofFields words fields).length = (Field.encodeAll words fields).length := by
  rw [← toBytes_ofFields]
  exact Array.length_toList.symm

end Writer

/-- What became of reading fields one after the other. -/
structure Readout where
  /-- The fields which could be read. -/
  fields : List Field
  /-- Why the next field could not be read. -/
  failure : Option ReadError
  /-- The place where reading ended. -/
  cursor : Cursor
deriving DecidableEq, Repr

namespace Cursor

/-- Read a field of some sort. -/
def readField (cursor : Cursor) : FieldSort → Except ReadError Field × Cursor
  | .u8 => (cursor.readNatural 1).map (Except.map (.u8 <| .ofNat ·)) id
  | .u16 => (cursor.readNatural 2).map (Except.map (.u16 <| .ofNat ·)) id
  | .u32 => (cursor.readNatural 4).map (Except.map (.u32 <| .ofNat ·)) id
  | .u64 => (cursor.readNatural 8).map (Except.map (.u64 <| .ofNat ·)) id
  | .address => (cursor.readNatural cursor.words.bytes).map (Except.map (.address <| .ofNat ·)) id
  | .blob => cursor.readBlob.map (Except.map .blob) id
  | .text => cursor.readText.map (Except.map .text) id
  | .bytes count => (cursor.readBytes count).map (Except.map .raw) id

/-- Read fields of some sorts, up to the first one which cannot be read. -/
def readAll (cursor : Cursor) : List FieldSort → Readout
  | [] => { fields := [], failure := none, cursor }
  | sort :: sorts =>
      match cursor.readField sort with
      | (.ok field, next) =>
          let rest := next.readAll sorts
          { rest with fields := field :: rest.fields }
      | (.error failure, next) => { fields := [], failure := some failure, cursor := next }

/-- A cursor which stands in front of other bytes. -/
def facing (cursor : Cursor) (bytes : Bytes) : Cursor :=
  { cursor with unread := bytes }

/-- A cursor behind some bytes and in front of others. -/
def past (cursor : Cursor) (bytes rest : Bytes) : Cursor :=
  { cursor with unread := rest, position := cursor.position + bytes.length }

variable {cursor : Cursor} {bytes : Bytes}

theorem past_past (first second middle rest : Bytes) :
    (cursor.past first middle).past second rest = cursor.past (first ++ second) rest := by
  simp [past, Nat.add_assoc]

section Reading

variable {α β γ : Type} {reading : Reading ReadError α} {value : α}

/-- What is made of a value which is read. -/
theorem read_map (cursor : Cursor) (make : α → β) (reading : Reading ReadError α) :
    cursor.read (make <$> reading) = (cursor.read reading).map (Except.map make) id := by
  have unfolded : make <$> reading = reading >>= fun value => .done (make value) := rfl
  rw [unfolded, read, read, Reading.run_bind]
  cases reading.run cursor.offset cursor.unread <;> rfl

theorem peek_eq (cursor : Cursor) (count : Nat) :
    cursor.peek count =
      if count ≤ cursor.unread.length then .ok (cursor.unread.take count)
      else .error .needMoreData := by
  rw [peek, Bytes.splitExactly_eq]
  by_cases enough : count ≤ cursor.unread.length
  · rw [if_pos enough, if_pos enough]
  · rw [if_neg enough, if_neg enough]

/-- Bytes are read as a cursor takes them. -/
theorem read_bytes (cursor : Cursor) (count : Nat) :
    cursor.read (.bytes count) = cursor.readBytes count := by
  rw [read, readBytes, peek_eq, Reading.bytes, Reading.run_take_eq]
  by_cases enough : count ≤ cursor.unread.length
  · rw [if_pos enough, if_pos enough, Reading.run_done]
    exact congrArg (fun used => (_, cursor.advance used)) (Nat.add_zero count)
  · rw [if_neg enough, if_neg enough]

/-- Numbers are read as a cursor takes them. -/
theorem read_natural (cursor : Cursor) (width : Nat) :
    cursor.read (.natural width) = cursor.readNatural width := by
  have unfolded : (Reading.natural width : Reading ReadError Nat) =
      LittleEndian.decode <$> Reading.bytes width := rfl
  rw [unfolded, read_map, read_bytes, readNatural]
  obtain ⟨answer, next⟩ := cursor.readBytes width
  cases answer <;> rfl

/-- Byte strings behind their length are read as a cursor takes them: it looks at the length
and the bytes before it moves. -/
theorem read_blob (cursor : Cursor) : cursor.read .blob = cursor.readBlob := by
  have unfolded : (Reading.blob : Reading ReadError Bytes) =
      .take 4 fun length => .take (LittleEndian.decode length) .done := rfl
  rw [unfolded, read, readBlob, Reading.run_take_eq, peek_eq]
  by_cases known : 4 ≤ cursor.unread.length
  · rw [if_pos known, if_pos known, Reading.run_take_eq]
    dsimp only
    rw [peek_eq, List.length_drop]
    by_cases enough : LittleEndian.decode (cursor.unread.take 4) ≤ cursor.unread.length - 4
    · have whole : 4 + LittleEndian.decode (cursor.unread.take 4) ≤ cursor.unread.length := by
        omega
      rw [if_pos enough, if_pos whole, Reading.run_done]
      dsimp only [Outcome.behind]
      rw [List.drop_take, Nat.add_sub_cancel_left, Nat.add_zero]
    · have cut : ¬ 4 + LittleEndian.decode (cursor.unread.take 4) ≤ cursor.unread.length := by
        omega
      rw [if_neg enough, if_neg cut]
      rfl
  · rw [if_neg known, if_neg known]

/-- Texts are read as a cursor takes them. -/
theorem read_text (cursor : Cursor) : cursor.read (.text .invalidUtf8) = cursor.readText := by
  rw [readText, ← read_blob, read, read, Reading.text, Reading.run_locate, Reading.run_bind]
  cases Reading.blob.run cursor.offset cursor.unread with
  | incomplete => rfl
  | malformed cause used => rfl
  | complete piece used =>
      dsimp only
      cases Text.ofUtf8? piece <;> rfl

/-- What is made in two steps of a value which is read. -/
theorem map_map_answer (first : α → β) (second : β → γ) (answer : Except ReadError α × Cursor) :
    (answer.map (Except.map first) id).map (Except.map second) id =
      answer.map (Except.map fun value => second (first value)) id := by
  obtain ⟨result, next⟩ := answer
  cases result <;> rfl

/-- A field of any sort is read as a cursor takes it. -/
theorem read_reading (cursor : Cursor) (sort : FieldSort) :
    cursor.read (sort.reading cursor.words) = cursor.readField sort := by
  cases sort with
  | u8 | u16 | u32 | u64 | address =>
      simp only [FieldSort.reading, Reading.u8, Reading.u16, Reading.u32, Reading.u64,
        Reading.address, read_map, read_natural, map_map_answer, readField]
  | blob => rw [FieldSort.reading, read_map, read_blob, readField]
  | text => rw [FieldSort.reading, read_map, read_text, readField]
  | bytes count => rw [FieldSort.reading, read_map, read_bytes, readField]

/-- A cursor moves past the bytes of a value, whatever follows them. -/
theorem read_of_accepts (accepts : reading.Accepts bytes value) (rest : Bytes) :
    (cursor.facing (bytes ++ rest)).read reading = (.ok value, cursor.past bytes rest) := by
  have complete : reading.run (cursor.facing (bytes ++ rest)).offset
      (cursor.facing (bytes ++ rest)).unread = .complete value bytes.length :=
    (accepts _).run_append rest
  rw [read, complete]
  simp [advance, facing, past]

/-- A cursor stays where it is if bytes of a value are missing. -/
theorem read_of_cut
    (accepts : reading.Accepts bytes value)
    {count : Nat}
    (missing : count < bytes.length) :
    (cursor.facing (bytes.take count)).read reading =
      (.error .needMoreData, cursor.facing (bytes.take count)) := by
  have incomplete : reading.run (cursor.facing (bytes.take count)).offset
      (cursor.facing (bytes.take count)).unread = .incomplete :=
    (accepts _).run_cut missing
  rw [read, incomplete]

end Reading

/-- Behind a field which could be read, the others are read. -/
theorem readAll_of_accepts
    {sort : FieldSort}
    {field : Field}
    (accepts : (sort.reading cursor.words).Accepts bytes field)
    (rest : Bytes)
    (sorts : List FieldSort) :
    (cursor.facing (bytes ++ rest)).readAll (sort :: sorts) =
      { (cursor.past bytes rest).readAll sorts with
        fields := field :: ((cursor.past bytes rest).readAll sorts).fields } := by
  have answered : (cursor.facing (bytes ++ rest)).read
      (sort.reading (cursor.facing (bytes ++ rest)).words) =
        (.ok field, cursor.past bytes rest) :=
    read_of_accepts accepts rest
  rw [readAll, ← read_reading, answered]

/-- A field which is not there completely ends reading in front of it. -/
theorem readAll_of_cut
    {sort : FieldSort}
    {field : Field}
    (accepts : (sort.reading cursor.words).Accepts bytes field)
    {count : Nat}
    (missing : count < bytes.length)
    (sorts : List FieldSort) :
    (cursor.facing (bytes.take count)).readAll (sort :: sorts) =
      { fields := []
        failure := some .needMoreData
        cursor := cursor.facing (bytes.take count) } := by
  have answered : (cursor.facing (bytes.take count)).read
      (sort.reading (cursor.facing (bytes.take count)).words) =
        (.error .needMoreData, cursor.facing (bytes.take count)) :=
    read_of_cut accepts missing
  rw [readAll, ← read_reading, answered]

variable {fields : List Field}

/-- All fields are read if all of their bytes are there, whatever follows. -/
theorem readAll_encodeAll
    (short : ∀ field ∈ fields, field.Short)
    (cursor : Cursor)
    (rest : Bytes) :
    (cursor.facing (Field.encodeAll cursor.words fields ++ rest)).readAll
        (fields.map Field.sort) =
      { fields := fields.map (Field.kept cursor.words)
        failure := none
        cursor := cursor.past (Field.encodeAll cursor.words fields) rest } := by
  induction fields generalizing cursor with
  | nil => rfl
  | cons field fields inductionHypothesis =>
      obtain ⟨first, others⟩ := List.forall_mem_cons.mp short
      have behind := inductionHypothesis others (cursor.past (field.encode cursor.words) [])
      change (cursor.past (field.encode cursor.words)
        (Field.encodeAll cursor.words fields ++ rest)).readAll _ = _ at behind
      rw [Field.encodeAll_cons, List.append_assoc, List.map_cons,
        readAll_of_accepts (first.accepts_kept cursor.words), behind, past_past, List.map_cons]
      rfl

/-- Fields of which only some of the bytes are there: those in front of the first one
which is not there completely are read, and then more is needed. -/
theorem exists_readAll_take
    (short : ∀ field ∈ fields, field.Short)
    (cursor : Cursor)
    {count : Nat}
    (missing : count < (Field.encodeAll cursor.words fields).length) :
    ∃ before field after,
      fields = before ++ field :: after ∧
      (Field.encodeAll cursor.words before).length ≤ count ∧
      count < (Field.encodeAll cursor.words (before ++ [field])).length ∧
      (cursor.facing ((Field.encodeAll cursor.words fields).take count)).readAll
          (fields.map Field.sort) =
        { fields := before.map (Field.kept cursor.words)
          failure := some .needMoreData
          cursor := cursor.past (Field.encodeAll cursor.words before)
            (((Field.encodeAll cursor.words fields).take count).drop
              (Field.encodeAll cursor.words before).length) } := by
  induction fields generalizing cursor count with
  | nil => exact absurd missing (Nat.not_lt_zero count)
  | cons field fields inductionHypothesis =>
      obtain ⟨first, others⟩ := List.forall_mem_cons.mp short
      have accepts := first.accepts_kept cursor.words
      rw [Field.encodeAll_cons, List.length_append] at missing
      by_cases inside : count < (field.encode cursor.words).length
      · refine ⟨[], field, fields, rfl, Nat.zero_le _, by simpa using inside, ?_⟩
        rw [Field.encodeAll_cons, List.take_append_of_le_length (Nat.le_of_lt inside),
          List.map_cons, readAll_of_cut accepts inside]
        rfl
      · obtain ⟨more, rfl⟩ := Nat.exists_eq_add_of_le (Nat.not_lt.mp inside)
        obtain ⟨before, cut, after, rfl, complete, partly, readout⟩ :=
          inductionHypothesis others (cursor.past (field.encode cursor.words) [])
            (Nat.lt_of_add_lt_add_left missing)
        refine ⟨field :: before, cut, after, rfl, ?_, ?_, ?_⟩
        · rw [Field.encodeAll_cons, List.length_append]
          exact Nat.add_le_add_left complete _
        · rw [List.cons_append, Field.encodeAll_cons, List.length_append]
          exact Nat.add_lt_add_left partly _
        · change (cursor.past (field.encode cursor.words)
            ((Field.encodeAll cursor.words (before ++ cut :: after)).take more)).readAll _ = _
            at readout
          rw [Field.encodeAll_cons, List.take_length_add_append, List.map_cons,
            readAll_of_accepts accepts, readout, Field.encodeAll_cons, List.length_append,
            List.drop_length_add_append, past_past]
          rfl

/-- Fields which a cursor reads back from the bytes of a writer. -/
structure ReadsBack (cursor : Cursor) (fields : List Field) : Prop where
  /-- All fields are read, and the cursor ends behind them, whatever follows. -/
  whole : ∀ rest,
    (cursor.facing ((Writer.ofFields cursor.words fields).toBytes ++ rest)).readAll
        (fields.map Field.sort) =
      { fields := fields.map (Field.kept cursor.words)
        failure := none
        cursor := cursor.past (Writer.ofFields cursor.words fields).toBytes rest }
  /-- Of bytes which end early, the fields in front of the first one which is not there
  completely are read.  This one asks for more, and the cursor stays in front of it. -/
  cut : ∀ count < (Writer.ofFields cursor.words fields).length,
    ∃ before field after,
      fields = before ++ field :: after ∧
      (Writer.ofFields cursor.words before).length ≤ count ∧
      count < (Writer.ofFields cursor.words (before ++ [field])).length ∧
      (cursor.facing ((Writer.ofFields cursor.words fields).toBytes.take count)).readAll
          (fields.map Field.sort) =
        { fields := before.map (Field.kept cursor.words)
          failure := some .needMoreData
          cursor := cursor.past (Writer.ofFields cursor.words before).toBytes
            (((Writer.ofFields cursor.words fields).toBytes.take count).drop
              (Writer.ofFields cursor.words before).length) }

/-- What a writer wrote is read back field by field, but for the bytes of addresses which
a stream has no room for.  Where some of the bytes are missing, it is read back up to the
field in which they end. -/
theorem readsBack_of_short
    {fields : List Field}
    (short : ∀ field ∈ fields, field.Short)
    (cursor : Cursor) :
    cursor.ReadsBack fields where
  whole rest := by
    rw [Writer.toBytes_ofFields]
    exact readAll_encodeAll short cursor rest
  cut count missing := by
    simp only [Writer.toBytes_ofFields, Writer.length_ofFields] at missing ⊢
    exact exists_readAll_take short cursor missing

/-- An address is cut to the words of a stream; a text and bytes behind it are read back. -/
theorem readsBack_of_wideAddress :
    ((Cursor.start [] 100 .four 1).facing
        ((Writer.ofFields .four [.address 0x100000005, .text "é", .blob [1, 2]]).toBytes ++
          [7])).readAll [.address, .text, .blob] =
      { fields := [.address 5, .text "é", .blob [1, 2]]
        failure := none
        cursor := { unread := [7], position := 16, base := 100, words := .four, version := 1 } } ∧
    (Cursor.start [] 100 .four 1).ReadsBack
      [.address 0x100000005, .text "é", .blob [1, 2]] := by
  have reads :=
    @readsBack_of_short [.address 0x100000005, .text "é", .blob [1, 2]] (by decide)
      (Cursor.start [] 100 .four 1)
  exact ⟨(reads.whole [7]).trans (by decide), reads⟩

end Cursor
end RuntimeLog
