import ColdSigner.Text.Quoted

/-! What can be wrong with a TOML document. -/
namespace ColdSigner.Toml

/-- What stands where something else is wanted. -/
inductive Found where
  | bool (b : Bool)
  | integer (v : Int)
  /-- A number with a fraction, by its digits. -/
  | decimal (digits : String)
  | text (s : String)
  | sequence
  | map
  deriving DecidableEq, Repr

def Found.name : Found → String
  | .bool b => "boolean \x60" ++ toString b ++ "\x60"
  | .integer v => "integer \x60" ++ toString v ++ "\x60"
  | .decimal d => "floating point \x60" ++ d ++ "\x60"
  | .text s => "string " ++ Text.quoteText s
  | .sequence => "sequence"
  | .map => "map"

inductive Cause where
  | unexpectedEnd
  | unexpectedCharacter (c : Char)
  | invalidCharacter (c : Char)
  | invalidEscape (c : Char)
  | invalidHexEscape (c : Char)
  | invalidEscapeValue (v : Nat)
  | lineBreakInText
  | unterminatedText
  | multilineKey
  | wanted (expected found : String)
  | invalidNumber
  | invalidDate
  | unquotedText
  | extendsValue
  | duplicateTable (name : String)
  | tableAsArray
  | invalidType (found : Found) (expected : String)
  | invalidValue (found : Found) (expected : String)
  | invalidLength (length : Nat) (expected : String)
  | duplicateField (name : String)
  | unknownVariant (name : String) (known : List String)
  | tableNotEmpty
  | manyTables
  deriving DecidableEq, Repr

namespace Cause

def quoted (s : String) : String := "\x60" ++ s ++ "\x60"

def escaped (c : Char) : String := quoted (String.ofList (Text.escapeAscii c))

def message : Cause → String
  | .unexpectedEnd => "unexpected eof encountered"
  | .unexpectedCharacter c => "unexpected character found: " ++ escaped c
  | .invalidCharacter c => "invalid character in string: " ++ escaped c
  | .invalidEscape c => "invalid escape character in string: " ++ escaped c
  | .invalidHexEscape c => "invalid hex escape character in string: " ++ escaped c
  | .invalidEscapeValue v => "invalid escape value: " ++ quoted (toString v)
  | .lineBreakInText => "newline in string found"
  | .unterminatedText => "unterminated string"
  | .multilineKey => "multiline strings are not allowed for key"
  | .wanted expected found => "expected " ++ expected ++ ", found " ++ found
  | .invalidNumber => "invalid number"
  | .invalidDate => "invalid date"
  | .unquotedText => "invalid TOML value, did you mean to use a quoted string?"
  | .extendsValue => "dotted key attempted to extend non-table type"
  | .duplicateTable name => "redefinition of table " ++ quoted name
  | .tableAsArray => "table redefined as array"
  | .invalidType found expected => "invalid type: " ++ found.name ++ ", expected " ++ expected
  | .invalidValue found expected => "invalid value: " ++ found.name ++ ", expected " ++ expected
  | .invalidLength n expected => "invalid length " ++ toString n ++ ", expected " ++ expected
  | .duplicateField name => "duplicate field " ++ quoted name
  | .unknownVariant name known =>
    "unknown variant " ++ quoted name ++ ", expected one of "
      ++ ", ".intercalate (known.map quoted)
  | .tableNotEmpty => "expected empty table"
  | .manyTables => "enum table must contain exactly one table"

end Cause

structure Fault where
  cause : Cause
  /-- Where it was noticed, in bytes. -/
  offset : Option Nat := none
  /-- The keys that lead there. -/
  keys : List String := []
  deriving DecidableEq, Repr

namespace Fault

/-- The same fault below a key. -/
def under (f : Fault) (key : String) : Fault := { f with keys := key :: f.keys }

/-- The same fault at a place, unless its place is known. -/
def orAt (f : Fault) (offset : Nat) : Fault := { f with offset := some (f.offset.getD offset) }

/-- The line and the column of an offset, both counted from 1, a column in bytes. -/
def position (text : String) (offset : Nat) : Nat × Nat :=
  let lines := text.splitOn "\n"
  let lines := if lines.getLast? = some "" then lines.dropLast else lines
  go 0 0 lines
where
  go (line start : Nat) : List String → Nat × Nat
    | [] => (line + 1, 1)
    | l :: rest =>
      let next := start + l.utf8ByteSize + 1
      if offset < next then (line + 1, offset - start + 1) else go (line + 1) next rest

/-- The fault as it is told to the user who wrote `text`. -/
def message (f : Fault) (text : String) : String :=
  let keys := if f.keys.isEmpty then "" else " for key " ++ Cause.quoted (".".intercalate f.keys)
  let place := match f.offset with
    | some o =>
      let (line, column) := position text o
      " at line " ++ toString line ++ " column " ++ toString column
    | none => ""
  f.cause.message ++ keys ++ place

end Fault

end ColdSigner.Toml
