import RuntimeLog.Text.Quoted

/-!
# JSON texts

JSON values and their texts, spread over lines with two blanks of indentation
per level.
-/

namespace RuntimeLog
namespace Text

/-- A JSON value.  Numbers are whole and not negative. -/
inductive Json where
  | null
  | boolean (value : Bool)
  | number (value : Nat)
  | text (value : String)
  | array (items : List Json)
  | object (members : List (String × Json))

namespace Json

/-- A character inside a JSON string. -/
def escaped (character : Char) : String :=
  if character == '\x22' then "\\\""
  else if character == '\x5c' then "\\\\"
  else if character == '\n' then "\\n"
  else if character == '\r' then "\\r"
  else if character == '\t' then "\\t"
  else if character == '\x08' then "\\b"
  else if character == '\x0c' then "\\f"
  else if character.toNat < 0x20 then "\\u00" ++ hexPair (UInt8.ofNat character.toNat)
  else character.toString

/-- A JSON string. -/
def quoted (text : String) : String :=
  "\"" ++ String.join (text.toList.map escaped) ++ "\""

/-- The start of a line at some level. -/
def lineStart (level : Nat) : String :=
  "\n" ++ String.ofList (List.replicate (2 * level) ' ')

/-- An optional value. -/
def optional {α : Type} (encode : α → Json) : Option α → Json
  | some value => encode value
  | none => null

mutual

/-- The text of a value whose first line stands at some level. -/
def render (level : Nat) : Json → String
  | null => "null"
  | boolean value => if value then "true" else "false"
  | number value => toString value
  | text value => quoted value
  | array [] => "[]"
  | array (item :: items) =>
      "[" ++ lineStart (level + 1) ++ render (level + 1) item ++ renderItems (level + 1) items ++
        lineStart level ++ "]"
  | object [] => "\x7b\x7d"
  | object ((key, value) :: members) =>
      "\x7b" ++ lineStart (level + 1) ++ quoted key ++ ": " ++ render (level + 1) value ++
        renderMembers (level + 1) members ++ lineStart level ++ "\x7d"

/-- The texts of the items behind the first one. -/
def renderItems (level : Nat) : List Json → String
  | [] => ""
  | item :: items => "," ++ lineStart level ++ render level item ++ renderItems level items

/-- The texts of the members behind the first one. -/
def renderMembers (level : Nat) : List (String × Json) → String
  | [] => ""
  | (key, value) :: members =>
      "," ++ lineStart level ++ quoted key ++ ": " ++ render level value ++
        renderMembers level members

end

/-- The text of a value. -/
def pretty (value : Json) : String :=
  value.render 0

end Json
end Text
end RuntimeLog
