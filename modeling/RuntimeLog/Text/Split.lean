/-!
# Pieces of texts

Argument lists are texts with a separator between the arguments, and source
files are texts of lines.
-/

namespace RuntimeLog
namespace Text

/-- Cut at every separator.  The piece at hand and the pieces before it are
reversed. -/
def splitFrom (separator : Char) : List Char → List Char → List String → List String
  | [], piece, pieces => (String.ofList piece.reverse :: pieces).reverse
  | character :: rest, piece, pieces =>
      if character == separator then
        splitFrom separator rest [] (String.ofList piece.reverse :: pieces)
      else splitFrom separator rest (character :: piece) pieces

/-- The pieces of a text between separators.  There is always at least one. -/
def split (separator : Char) (text : String) : List String :=
  splitFrom separator text.toList [] []

/-- Whether a text starts with another one. -/
def startsWith (text start : String) : Bool :=
  start.toList.isPrefixOf text.toList

/-- A text without the given characters at its end. -/
def trimEnd (dropped : Char → Bool) (text : String) : String :=
  String.ofList (text.toList.reverse.dropWhile dropped).reverse

/-- A line without one carriage return at its end. -/
def withoutReturn (line : String) : String :=
  match line.toList.reverse with
  | '\r' :: rest => String.ofList rest.reverse
  | _ => line

/-- The lines of a text.  A line ends with a line feed, before which a carriage
return is dropped; characters behind the last line feed are a line as well. -/
def lines (text : String) : List String :=
  let pieces := split '\n' text
  let ended := pieces.dropLast.map withoutReturn
  match pieces.getLast? with
  | none | some "" => ended
  | some rest => ended ++ [rest]

end Text
end RuntimeLog
