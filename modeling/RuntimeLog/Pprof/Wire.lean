import RuntimeLog.Bytes

/-!
# Protocol buffer fields

A message is a string of fields, each with a tag and a number or some bytes.
Numbers are written in base 128, least significant digit first, with a mark on
every byte but the last.  A field which has its default value is left out.
-/

namespace RuntimeLog
namespace Pprof

/-- A number in base 128. -/
def varint (number : Nat) : Bytes :=
  if number < 128 then [UInt8.ofNat number]
  else UInt8.ofNat (number % 128 + 128) :: varint (number / 128)
termination_by number
decreasing_by omega

/-- The value of a field. -/
inductive WireValue where
  | number (value : UInt64)
  | bytes (content : Bytes)
deriving DecidableEq, Repr

/-- A field of a message. -/
structure WireField where
  tag : Nat
  value : WireValue
deriving DecidableEq, Repr

namespace WireField

/-- The bytes of a field: its tag and the sort of its value, and the value. -/
def encode (field : WireField) : Bytes :=
  match field.value with
  | .number value => varint (field.tag * 8) ++ varint value.toNat
  | .bytes content => varint (field.tag * 8 + 2) ++ varint content.length ++ content

/-- The bytes of a message. -/
def encodeAll (fields : List WireField) : Bytes :=
  fields.flatMap encode

/-- A field with a number. -/
def unsigned (tag : Nat) (value : UInt64) : List WireField :=
  if value = 0 then [] else [{ tag, value := .number value }]

/-- A field with a signed number, as its two's complement. -/
def signed (tag : Nat) (value : Int64) : List WireField :=
  unsigned tag value.toUInt64

/-- A field with a truth value. -/
def boolean (tag : Nat) (value : Bool) : List WireField :=
  unsigned tag (if value then 1 else 0)

/-- A field with several numbers. -/
def packed (tag : Nat) (values : List UInt64) : List WireField :=
  if values = [] then []
  else [{ tag, value := .bytes (values.flatMap fun value => varint value.toNat) }]

/-- A field with several signed numbers. -/
def packedSigned (tag : Nat) (values : List Int64) : List WireField :=
  packed tag (values.map Int64.toUInt64)

/-- A field with some bytes, which is there even if they are none. -/
def bytes (tag : Nat) (content : Bytes) : WireField :=
  { tag, value := .bytes content }

/-- A field with a message. -/
def message (tag : Nat) (fields : List WireField) : WireField :=
  bytes tag (encodeAll fields)

end WireField
end Pprof
end RuntimeLog
