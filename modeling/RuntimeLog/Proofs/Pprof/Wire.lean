import Mathlib.Data.List.Basic
import RuntimeLog.Pprof.Wire

/-!
# Reading protocol buffer fields

A number ends with the first byte without a mark, and a field with bytes tells how many
they are.  So the fields of a message can be told apart, and a field of the message is
found by its tag: the last number counts, a number which is left out is zero, and several
numbers stand in fields of their own or in one field with their bytes.
-/

namespace RuntimeLog
namespace Pprof

/-! ## Numbers -/

/-- The number in base 128 at the start of some bytes, and the bytes behind it. -/
def readVarint? : Bytes → Option (Nat × Bytes)
  | [] => none
  | byte :: rest =>
      if byte.toNat < 128 then some (byte.toNat, rest)
      else (readVarint? rest).map fun found => (byte.toNat - 128 + 128 * found.1, found.2)

/-- A number of at most 64 bits at the start of some bytes, and the bytes behind it. -/
def readNumber? (bytes : Bytes) : Option (UInt64 × Bytes) :=
  (readVarint? bytes).bind fun found =>
    if found.1 < UInt64.size then some (UInt64.ofNat found.1, found.2) else none

/-- A number can be told from what stands behind it. -/
@[simp] theorem readVarint?_varint (number : Nat) (rest : Bytes) :
    readVarint? (varint number ++ rest) = some (number, rest) := by
  induction number using varint.induct with
  | case1 number last =>
      have low : (UInt8.ofNat number).toNat = number := by
        rw [UInt8.toNat_ofNat']
        omega
      rw [varint, if_pos last, List.singleton_append, readVarint?, low, if_pos last]
  | case2 number more inductionHypothesis =>
      have low : (UInt8.ofNat (number % 128 + 128)).toNat = number % 128 + 128 := by
        rw [UInt8.toNat_ofNat']
        omega
      have marked : ¬number % 128 + 128 < 128 := by omega
      rw [varint, if_neg more, List.cons_append, readVarint?, low, if_neg marked,
        inductionHypothesis, Option.map_some, Nat.add_sub_cancel, Nat.mod_add_div]

example : readVarint? [0x96, 0x01, 0x07] = some (150, [0x07]) := by decide

@[simp] theorem readNumber?_varint (value : UInt64) (rest : Bytes) :
    readNumber? (varint value.toNat ++ rest) = some (value, rest) := by
  rw [readNumber?, readVarint?_varint, Option.bind_some, if_pos value.toNat_lt_size,
    UInt64.ofNat_toNat]

theorem varint_ne_nil (number : Nat) : varint number ≠ [] := by
  rw [varint]
  split <;> exact List.cons_ne_nil _ _

/-! ## Sequences -/

/-- Some bytes which hold things one behind the other, each of them in at least one byte. -/
def readMany? {α : Type} (read? : Bytes → Option (α × Bytes)) (bytes : Bytes) : Option (List α) :=
  if bytes = [] then some []
  else
    (read? bytes).bind fun found =>
      if found.2.length < bytes.length then
        (readMany? read? found.2).map (List.cons found.1)
      else none
termination_by bytes.length

/-- What can be told from the bytes behind it can be told in a sequence. -/
theorem readMany?_flatMap
    {α : Type}
    {read? : Bytes → Option (α × Bytes)}
    {write : α → Bytes}
    (readBack : ∀ value rest, read? (write value ++ rest) = some (value, rest))
    (nonempty : ∀ value, write value ≠ [])
    (values : List α) :
    readMany? read? (values.flatMap write) = some values := by
  induction values with
  | nil =>
      rw [List.flatMap_nil, readMany?, if_pos rfl]
  | cons value values inductionHypothesis =>
      have more : write value ++ values.flatMap write ≠ [] :=
        List.append_ne_nil_of_left_ne_nil (nonempty value) _
      have shorter : (values.flatMap write).length
          < (write value ++ values.flatMap write).length := by
        have positive := List.length_pos_iff.mpr (nonempty value)
        rw [List.length_append]
        omega
      rw [List.flatMap_cons, readMany?, if_neg more, readBack, Option.bind_some, if_pos shorter,
        inductionHypothesis, Option.map_some]

/-! ## Fields -/

namespace WireField

/-- The field at the start of some bytes, and the bytes behind it.  A field has a number or
some bytes, as the last digit of its key says. -/
def read? (bytes : Bytes) : Option (WireField × Bytes) :=
  (readVarint? bytes).bind fun key =>
    let tag := key.1 / 8
    if key.1 % 8 = 0 then
      (readNumber? key.2).map fun found => ({ tag, value := .number found.1 }, found.2)
    else if key.1 % 8 = 2 then
      (readVarint? key.2).bind fun length =>
        if length.1 ≤ length.2.length then
          some ({ tag, value := .bytes (length.2.take length.1) }, length.2.drop length.1)
        else none
    else none

/-- The fields of a message. -/
def readAll? (bytes : Bytes) : Option (List WireField) :=
  readMany? read? bytes

/-- A field can be told from what stands behind it. -/
theorem read?_encode (field : WireField) (rest : Bytes) :
    read? (field.encode ++ rest) = some (field, rest) := by
  obtain ⟨tag, value⟩ := field
  cases value with
  | number value =>
      have sort : tag * 8 % 8 = 0 := Nat.mul_mod_left tag 8
      have key : tag * 8 / 8 = tag := Nat.mul_div_cancel tag (by decide)
      rw [encode, List.append_assoc, read?, readVarint?_varint, Option.bind_some, if_pos sort, key,
        readNumber?_varint, Option.map_some]
  | bytes content =>
      have number : ¬(tag * 8 + 2) % 8 = 0 := by omega
      have sort : (tag * 8 + 2) % 8 = 2 := by omega
      have key : (tag * 8 + 2) / 8 = tag := by omega
      have inside : content.length ≤ (content ++ rest).length := by
        rw [List.length_append]
        omega
      rw [encode, List.append_assoc, List.append_assoc, read?, readVarint?_varint,
        Option.bind_some, if_neg number, if_pos sort, key, readVarint?_varint, Option.bind_some,
        if_pos inside, List.take_left, List.drop_left]

theorem encode_ne_nil (field : WireField) : field.encode ≠ [] := by
  obtain ⟨tag, value⟩ := field
  cases value with
  | number value => exact List.append_ne_nil_of_left_ne_nil (varint_ne_nil _) _
  | bytes content =>
      exact List.append_ne_nil_of_left_ne_nil
        (List.append_ne_nil_of_left_ne_nil (varint_ne_nil _) _) _

/-- The bytes of a message tell its fields. -/
@[simp] theorem readAll?_encodeAll (fields : List WireField) :
    readAll? (encodeAll fields) = some fields :=
  readMany?_flatMap read?_encode encode_ne_nil fields

/-- The values of the fields with a tag. -/
def valuesOf (tag : Nat) (fields : List WireField) : List WireValue :=
  (fields.filter fun field => field.tag == tag).map WireField.value

section Values

variable {tag other : Nat}

@[simp] theorem valuesOf_append (fields more : List WireField) :
    valuesOf tag (fields ++ more) = valuesOf tag fields ++ valuesOf tag more := by
  rw [valuesOf, List.filter_append, List.map_append]
  rfl

/-- Fields with some tag have no values of another one. -/
theorem valuesOf_of_tags
    {fields : List WireField}
    (tagged : ∀ field ∈ fields, field.tag = other)
    (different : other ≠ tag) :
    valuesOf tag fields = [] := by
  rw [valuesOf, List.map_eq_nil_iff, List.filter_eq_nil_iff]
  intro field member
  rw [tagged field member, beq_iff_eq]
  exact different

@[simp] theorem valuesOf_unsigned_of_ne (different : other ≠ tag) (value : UInt64) :
    valuesOf tag (unsigned other value) = [] := by
  refine valuesOf_of_tags (fun field member => ?_) different
  unfold unsigned at member
  split at member
  · cases member
  · rw [List.mem_singleton.mp member]

@[simp] theorem valuesOf_signed_of_ne (different : other ≠ tag) (value : Int64) :
    valuesOf tag (signed other value) = [] :=
  valuesOf_unsigned_of_ne different _

@[simp] theorem valuesOf_boolean_of_ne (different : other ≠ tag) (value : Bool) :
    valuesOf tag (boolean other value) = [] :=
  valuesOf_unsigned_of_ne different _

@[simp] theorem valuesOf_packed_of_ne (different : other ≠ tag) (values : List UInt64) :
    valuesOf tag (packed other values) = [] := by
  refine valuesOf_of_tags (fun field member => ?_) different
  unfold packed at member
  split at member
  · cases member
  · rw [List.mem_singleton.mp member]

@[simp] theorem valuesOf_packedSigned_of_ne (different : other ≠ tag) (values : List Int64) :
    valuesOf tag (packedSigned other values) = [] :=
  valuesOf_packed_of_ne different _

@[simp] theorem valuesOf_bytes_of_ne
    {α : Type}
    (different : other ≠ tag)
    (content : α → Bytes)
    (values : List α) :
    valuesOf tag (values.map fun value => bytes other (content value)) = [] := by
  refine valuesOf_of_tags (fun field member => ?_) different
  obtain ⟨value, _, rfl⟩ := List.mem_map.mp member
  rfl

@[simp] theorem valuesOf_bytes {α : Type} (content : α → Bytes) (values : List α) :
    valuesOf tag (values.map fun value => bytes tag (content value)) =
      values.map fun value => .bytes (content value) := by
  induction values with
  | nil => rfl
  | cons value values inductionHypothesis =>
      rw [List.map_cons, ← List.singleton_append, valuesOf_append, inductionHypothesis]
      simp [valuesOf, bytes]

end Values

end WireField

/-! ## Values -/

namespace WireValue

/-- The number of a field which has one. -/
def number? : WireValue → Option UInt64
  | number value => some value
  | bytes _ => none

/-- The bytes of a field which has some. -/
def content? : WireValue → Option Bytes
  | number _ => none
  | bytes content => some content

/-- The numbers of a field: its own one, or those in its bytes. -/
def numbers? : WireValue → Option (List UInt64)
  | number value => some [value]
  | bytes content => readMany? readNumber? content

/-- The value of a number.  The last field with it counts, and without any it is zero. -/
def unsigned? (values : List WireValue) : Option UInt64 :=
  (values.mapM number?).map fun numbers => numbers.getLast?.getD 0

/-- The value of a signed number, which stands there as its two's complement. -/
def signed? (values : List WireValue) : Option Int64 :=
  (unsigned? values).map UInt64.toInt64

/-- The value of a truth value. -/
def boolean? (values : List WireValue) : Option Bool :=
  (unsigned? values).map fun number => number != 0

/-- The values of a list of numbers. -/
def packed? (values : List WireValue) : Option (List UInt64) :=
  (values.mapM numbers?).map List.flatten

/-- The values of a list of signed numbers. -/
def packedSigned? (values : List WireValue) : Option (List Int64) :=
  (packed? values).map fun numbers => numbers.map UInt64.toInt64

/-- What is read from the bytes of each field. -/
def each? {α : Type} (read? : Bytes → Option α) (values : List WireValue) : Option (List α) :=
  values.mapM fun value => value.content?.bind read?

/-- What is read from the bytes of all fields, if there is any. -/
def merged? {α : Type} (read? : Bytes → Option α) (values : List WireValue) :
    Option (Option α) :=
  (values.mapM content?).bind fun contents =>
    if contents = [] then some none else (read? contents.flatten).map some

open WireField

variable {tag : Nat}

@[simp] theorem unsigned?_unsigned (value : UInt64) :
    unsigned? (valuesOf tag (unsigned tag value)) = some value := by
  unfold WireField.unsigned
  split
  case isTrue zero =>
    rw [zero]
    rfl
  case isFalse => simp [valuesOf, unsigned?, number?]

@[simp] theorem signed?_signed (value : Int64) :
    signed? (valuesOf tag (signed tag value)) = some value := by
  rw [signed?, signed, unsigned?_unsigned, Option.map_some, Int64.toInt64_toUInt64]

@[simp] theorem boolean?_boolean (value : Bool) :
    boolean? (valuesOf tag (boolean tag value)) = some value := by
  rw [boolean?, boolean, unsigned?_unsigned, Option.map_some]
  cases value <;> rfl

@[simp] theorem packed?_packed (values : List UInt64) :
    packed? (valuesOf tag (packed tag values)) = some values := by
  unfold WireField.packed
  split
  case isTrue none =>
    rw [none]
    rfl
  case isFalse =>
    have readBack := readMany?_flatMap readNumber?_varint (fun value => varint_ne_nil _) values
    simp [valuesOf, packed?, numbers?, readBack]

@[simp] theorem packedSigned?_packedSigned (values : List Int64) :
    packedSigned? (valuesOf tag (packedSigned tag values)) = some values := by
  rw [packedSigned?, packedSigned, packed?_packed, Option.map_some, List.map_map]
  have same : UInt64.toInt64 ∘ Int64.toUInt64 = id := funext Int64.toInt64_toUInt64
  rw [same, List.map_id]

/-- Each field is read back if its bytes are. -/
@[simp] theorem each?_map
    {α : Type}
    {read? : Bytes → Option α}
    {write : α → Bytes}
    (readBack : ∀ value, read? (write value) = some value)
    (values : List α) :
    each? read? (values.map fun value => .bytes (write value)) = some values := by
  induction values with
  | nil => rfl
  | cons value values inductionHypothesis =>
      rw [each?] at inductionHypothesis ⊢
      rw [List.map_cons, List.mapM_cons, inductionHypothesis, content?, Option.bind_some, readBack]
      rfl

/-- A single field is read back if its bytes are. -/
@[simp] theorem merged?_map
    {α : Type}
    {read? : Bytes → Option α}
    {write : α → Bytes}
    (readBack : ∀ value, read? (write value) = some value)
    (value : Option α) :
    merged? read? (value.toList.map fun value => .bytes (write value)) = some value := by
  cases value with
  | none => rfl
  | some value => simp [merged?, content?, readBack]

end WireValue
end Pprof
end RuntimeLog
