import RuntimeLog.Bytes
import RuntimeLog.Text.Printable

/-!
# Numbers and texts in messages

Addresses and markers are shown in lower-case hexadecimal, with or without the mark `0x`
and padded or not.  Texts from a log are put between quotes, and everything which would be
hard to tell apart there is escaped: the quote itself, the backslash, line ends and all
characters which cannot be seen.
-/

namespace RuntimeLog
namespace Text

/-! ## Hexadecimal numbers -/

/-- The lower-case digit of a number below sixteen. -/
def hexDigit (digit : Nat) : Char :=
  if digit < 10 then Char.ofNat (48 + digit) else Char.ofNat (87 + digit)

/-- The hexadecimal digits of a number, without leading zeros. -/
def hexDigits (number : Nat) : String :=
  String.ofList ((Nat.toDigits 16 number))

/-- A number in hexadecimal with the mark `0x`. -/
def hex (number : Nat) : String :=
  "0x" ++ hexDigits number

/-- The two hexadecimal digits of a byte. -/
def hexPair (byte : UInt8) : String :=
  String.ofList [hexDigit (byte.toNat / 16), hexDigit (byte.toNat % 16)]

/-- A byte with the mark `0x` and both digits. -/
def hexByte (byte : UInt8) : String :=
  "0x" ++ hexPair byte

/-- Two digits for every byte of a string. -/
def hexBytes (bytes : Bytes) : String :=
  String.join (bytes.map hexPair)

/-! ## Quotes -/

/-- A character as it is shown between two of the given quotes. -/
def escaped (quote character : Char) : List Char :=
  if character == quote || character == '\x5c' then ['\x5c', character]
  else if character == '\t' then ['\x5c', 't']
  else if character == '\n' then ['\x5c', 'n']
  else if character == '\r' then ['\x5c', 'r']
  else if character.toNat == 0 then ['\x5c', '0']
  else if isPrintable character then [character]
  else ('\x5c' :: 'u' :: '\x7b' :: (hexDigits character.toNat).toList) ++ ['\x7d']

/-- A text between double quotes. -/
def quoted (text : String) : String :=
  String.ofList ('\x22' :: text.toList.flatMap (escaped '\x22') ++ ['\x22'])

/-- A character between single quotes. -/
def quotedCharacter (character : Char) : String :=
  String.ofList ('\x27' :: escaped '\x27' character ++ ['\x27'])

/-- A number which may be missing, by the name of the case. -/
def optionalNumber : Option Nat → String
  | some number => s!"Some({number})"
  | none => "None"

end Text
end RuntimeLog
