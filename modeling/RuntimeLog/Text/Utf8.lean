import RuntimeLog.Bytes

/-!
# UTF-8 texts in byte strings

Texts in a log are UTF-8.  Most of them have to be valid; a few are shown as
well as they can be, with one replacement character for every longest piece
which starts a character but does not complete it.
-/

namespace RuntimeLog
namespace Text

/-- The text which a byte string encodes, if it is valid UTF-8. -/
def ofUtf8? (bytes : Bytes) : Option String :=
  String.fromUTF8? ⟨bytes.toArray⟩

/-- The UTF-8 encoding of a text. -/
def toUtf8 (text : String) : Bytes :=
  text.toUTF8.data.toList

/-- Encoding a text and decoding it gives it back. -/
@[simp] theorem ofUtf8?_toUtf8 (text : String) : ofUtf8? (toUtf8 text) = some text := by
  simp [ofUtf8?, toUtf8, String.fromUTF8?, text.isValidUTF8]
  rfl

/-- What is shown in place of bytes which encode no character. -/
def replacement : Char := Char.ofNat 0xfffd

/-- Whether a byte continues a character. -/
def isContinuation (byte : UInt8) : Bool :=
  0x80 ≤ byte && byte ≤ 0xbf

/-- Whether a byte can follow the given first byte of a character. -/
def isSecond (first byte : UInt8) : Bool :=
  if first == 0xe0 then 0xa0 ≤ byte && byte ≤ 0xbf
  else if first == 0xed then 0x80 ≤ byte && byte ≤ 0x9f
  else if first == 0xf0 then 0x90 ≤ byte && byte ≤ 0xbf
  else if first == 0xf4 then 0x80 ≤ byte && byte ≤ 0x8f
  else isContinuation byte

/-- The number of bytes of a character, by its first byte. -/
def characterWidth (first : UInt8) : Nat :=
  if first < 0x80 then 1
  else if 0xc2 ≤ first && first ≤ 0xdf then 2
  else if 0xe0 ≤ first && first ≤ 0xef then 3
  else if 0xf0 ≤ first && first ≤ 0xf4 then 4
  else 0

/-- The six payload bits of a continuation byte. -/
def continuationBits (byte : UInt8) : Nat := byte.toNat % 64

/-- The character which starts with a byte, and how many of the bytes after it
belong to it.  A piece which cannot be completed is one replacement. -/
def character (first : UInt8) (rest : Bytes) : Char × Nat :=
  let width := characterWidth first
  if width == 1 then (Char.ofNat first.toNat, 0)
  else match rest with
  | [] => (replacement, 0)
  | second :: rest =>
      if width == 0 || !isSecond first second then (replacement, 0)
      else if width == 2 then
        (Char.ofNat (first.toNat % 32 * 64 + continuationBits second), 1)
      else match rest with
      | [] => (replacement, 1)
      | third :: rest =>
          let bits := continuationBits second * 64 + continuationBits third
          if !isContinuation third then (replacement, 1)
          else if width == 3 then (Char.ofNat (first.toNat % 16 * 4096 + bits), 2)
          else match rest with
          | [] => (replacement, 2)
          | fourth :: _ =>
              if !isContinuation fourth then (replacement, 2)
              else
                (Char.ofNat (first.toNat % 8 * 262144 + bits * 64 + continuationBits fourth), 3)

/-- The characters of a byte string, with replacements where it is not UTF-8. -/
def charactersWithReplacement : Bytes → List Char
  | [] => []
  | first :: rest =>
      (character first rest).1 :: charactersWithReplacement (rest.drop (character first rest).2)
termination_by bytes => bytes.length
decreasing_by
  simp only [List.length_drop, List.length_cons]
  omega

/-- The text of a byte string, with replacements where it is not UTF-8. -/
def ofUtf8WithReplacement (bytes : Bytes) : String :=
  String.ofList (charactersWithReplacement bytes)

end Text
end RuntimeLog
