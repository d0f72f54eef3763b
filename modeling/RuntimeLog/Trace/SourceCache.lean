import Std.Data.ExtTreeMap
import RuntimeLog.Text.Split
import RuntimeLog.Writer

/-!
# Source lines

Logs carry lines of the source of the interpreted program.  The first text which
is stored for a line stays.
-/

namespace RuntimeLog

/-- A line of source. -/
structure SourceLine where
  /-- The number of blanks in front of the text. -/
  indent : UInt8
  text : String
deriving DecidableEq, Repr

namespace SourceLine

/-- Whether a character belongs to the indentation of a line. -/
def isBlank (character : Char) : Bool :=
  character == ' ' || character == '\t'

/-- Whether a character belongs to the end of a line. -/
def isLineEnd (character : Char) : Bool :=
  character == '\r' || character == '\n'

/-- Take apart the indentation and the text of a raw line.  The indentation
counts up to 255. -/
def ofRaw (raw : String) : SourceLine :=
  let blanks := (raw.toList.takeWhile isBlank).length
  let text := String.ofList (raw.toList.dropWhile isBlank)
  { indent := UInt8.ofNat (min 255 blanks), text := Text.trimEnd isLineEnd text }

end SourceLine

/-- The lines of one file, by number. -/
abbrev FileLines : Type := Std.ExtTreeMap UInt16 SourceLine compare

/-- Source lines by file and line number. -/
structure SourceCache where
  files : Std.ExtTreeMap String FileLines compare

namespace SourceCache

/-- The cache without lines. -/
def empty : SourceCache := ⟨∅⟩

/-- The lines of a file. -/
def file? (cache : SourceCache) (file : String) : Option FileLines :=
  cache.files[file]?

/-- A line of a file. -/
def get? (cache : SourceCache) (file : String) (line : UInt16) : Option SourceLine :=
  (cache.file? file).bind fun lines => lines[line]?

/-- Store a line, unless there is one already. -/
def insert (cache : SourceCache) (file : String) (line : UInt16) (source : SourceLine) :
    SourceCache :=
  match cache.get? file line with
  | some _ => cache
  | none => ⟨cache.files.insert file (((cache.file? file).getD ∅).insert line source)⟩

/-- The number of lines of all files. -/
def size (cache : SourceCache) : Nat :=
  cache.files.toList.foldl (fun total entry => total + entry.2.size) 0

/-- Whether there is no line. -/
def isEmpty (cache : SourceCache) : Bool :=
  cache.files.toList.all fun entry => entry.2.isEmpty

/-- The byte in front of a record of source lines. -/
def marker : UInt8 := 0x20

/-- The most lines of one record. -/
def greatestCount : Nat := 65535

/-- Cut a list into pieces of at most `size` entries; the last one may be
shorter. -/
def pieces {α : Type} (size : Nat) (entries : List α) : List (List α) :=
  if entries.isEmpty ∨ size = 0 then []
  else entries.take size :: pieces size (entries.drop size)
termination_by entries.length
decreasing_by
  rename_i notDone
  have nonempty : entries ≠ [] := by
    intro none
    simp [none] at notDone
  have positive := List.length_pos_iff.mpr nonempty
  simp only [List.length_drop]
  omega

/-- The fields of one line. -/
def lineFields (line : UInt16) (source : SourceLine) : List Field :=
  [.u16 line, .u8 source.indent, .text source.text]

/-- The fields of a record with some lines of a file, behind its marker. -/
def recordFields (file : String) (lines : List (UInt16 × SourceLine)) : List Field :=
  [.text file, .u16 (UInt16.ofNat lines.length)] ++
    lines.flatMap fun entry => lineFields entry.1 entry.2

/-- The fields of the records for a whole cache.  A file with too many lines for
one record takes several. -/
def fields (cache : SourceCache) : List Field :=
  cache.files.toList.flatMap fun entry =>
    (pieces greatestCount entry.2.toList).flatMap fun lines =>
      .u8 marker :: recordFields entry.1 lines

/-- The bytes of the records for a whole cache. -/
def encode (cache : SourceCache) (words : WordSize) : Bytes :=
  Field.encodeAll words cache.fields

end SourceCache

/-- Where the texts of source lines come from: whole files by name. -/
abbrev SourceFiles : Type := Std.ExtTreeMap String String compare

namespace SourceFiles

/-- A line of a file, counted from one. -/
def line? (files : SourceFiles) (file : String) (line : UInt16) : Option String :=
  if line == 0 then none
  else files[file]?.bind fun contents => (Text.lines contents)[line.toNat - 1]?

end SourceFiles
end RuntimeLog
