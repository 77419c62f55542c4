import ColdSigner.Bytes.Hex

/-! JSON reports, one value in a line and two blanks for every level. -/
namespace ColdSigner.Text

inductive Json where
  | text (s : String)
  | number (n : Nat)
  | array (items : List Json)
  | object (fields : List (String × Json))

namespace Json

/-- A character within a text. -/
def escape (c : Char) : List Char :=
  let v := c.toNat
  if c = '\x22' ∨ c = '\x5c' then ['\x5c', c]
  else if c = '\n' then ['\x5c', 'n']
  else if c = '\r' then ['\x5c', 'r']
  else if c = '\t' then ['\x5c', 't']
  else if c = '\x08' then ['\x5c', 'b']
  else if c = '\x0c' then ['\x5c', 'f']
  else if v < 0x20 then ['\x5c', 'u', '0', '0', Hex.digit (v / 16), Hex.digit (v % 16)]
  else [c]

def quote (s : String) : String := String.ofList ('\x22' :: s.toList.flatMap escape ++ ['\x22'])

/-- A new line at a level. -/
def newLine (acc : String) (level : Nat) : String :=
  (acc.push '\n') ++ String.ofList (List.replicate (2 * level) ' ')

mutual

/-- Adds a value that starts at a level. -/
def write (acc : String) (level : Nat) : Json → String
  | .text s => acc ++ quote s
  | .number n => acc ++ toString n
  | .array [] => acc ++ "[]"
  | .array items => newLine (writeItems (acc ++ "[") (level + 1) items) level ++ "]"
  | .object [] => acc ++ "\x7b\x7d"
  | .object fields => newLine (writeFields (acc ++ "\x7b") (level + 1) fields) level ++ "\x7d"

def writeItems (acc : String) (level : Nat) : List Json → String
  | [] => acc
  | [x] => write (newLine acc level) level x
  | x :: y :: rest => writeItems (write (newLine acc level) level x ++ ",") level (y :: rest)

def writeFields (acc : String) (level : Nat) : List (String × Json) → String
  | [] => acc
  | [(k, x)] => write (newLine acc level ++ quote k ++ ": ") level x
  | (k, x) :: y :: rest =>
    writeFields (write (newLine acc level ++ quote k ++ ": ") level x ++ ",") level (y :: rest)

end

def render (j : Json) : String := write "" 0 j

end Json

end ColdSigner.Text
