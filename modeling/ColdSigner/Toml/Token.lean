import ColdSigner.Toml.Fault

/-! The tokens of a TOML document. -/
namespace ColdSigner.Toml

inductive Token where
  | blanks (s : String)
  | lineBreak
  | comment
  | equals
  | period
  | comma
  | colon
  | plus
  | leftBrace
  | rightBrace
  | leftBracket
  | rightBracket
  | word (s : String)
  | text (s : String) (multiline : Bool)
  deriving DecidableEq, Repr

def Token.name : Token → String
  | .blanks _ => "whitespace"
  | .lineBreak => "a newline"
  | .comment => "a comment"
  | .equals => "an equals"
  | .period => "a period"
  | .comma => "a comma"
  | .colon => "a colon"
  | .plus => "a plus"
  | .leftBrace => "a left brace"
  | .rightBrace => "a right brace"
  | .leftBracket => "a left bracket"
  | .rightBracket => "a right bracket"
  | .word _ => "an identifier"
  | .text _ true => "a multiline string"
  | .text _ false => "a string"

/-- What is left of a document: characters with their offsets in bytes, and the length of
the whole. -/
structure Input where
  rest : List (Nat × Char)
  length : Nat

namespace Input

/-- Characters with their offsets, a carriage return and the line feed after it being one. -/
def place (offset : Nat) (acc : List (Nat × Char)) : List Char → List (Nat × Char)
  | '\r' :: '\n' :: rest => place (offset + 2) ((offset, '\n') :: acc) rest
  | c :: rest => place (offset + c.utf8Size) ((offset, c) :: acc) rest
  | [] => acc.reverse

/-- A document from its start; a byte order mark is passed over. -/
def ofString (s : String) : Input :=
  let placed := place 0 [] s.toList
  ⟨if (placed.head?.map (·.2)) = some (Char.ofNat 0xFEFF) then placed.drop 1 else placed,
    s.utf8ByteSize⟩

/-- The offset of what comes next. -/
def offset (i : Input) : Nat :=
  match i.rest with
  | (o, _) :: _ => o
  | [] => i.length

def fail {α : Type} (offset : Nat) (cause : Cause) : Except Fault α :=
  .error { cause, offset := some offset }

def takeWhile (i : Input) (p : Char → Bool) : List Char :=
  (i.rest.takeWhile fun x => p x.2).map (·.2)

def dropWhile (i : Input) (p : Char → Bool) : Input :=
  { i with rest := i.rest.dropWhile fun x => p x.2 }

/-- Whether a character may stand in a comment. -/
def inComment (c : Char) : Bool := c == '\t' || ' ' ≤ c

/-- Whether a character may stand in a text as it is. -/
def inText (c : Char) : Bool := c == '\t' || (' ' ≤ c && c != '\x7f')

def isBlank (c : Char) : Bool := c == ' ' || c == '\t'

def isWord (c : Char) : Bool := c.isAlphanum || c == '-' || c == '_'

/-- The value of `n` hexadecimal digits. -/
def hexEscape (start : Nat) (acc : Nat) : Nat → List (Nat × Char) →
    Except Fault (Nat × List (Nat × Char))
  | 0, cs => .ok (acc, cs)
  | n + 1, (o, c) :: rest =>
    match c.toNat with
    | v =>
      if '0' ≤ c ∧ c ≤ '9' then hexEscape start (16 * acc + (v - 48)) n rest
      else if 'a' ≤ c ∧ c ≤ 'f' then hexEscape start (16 * acc + (v - 87)) n rest
      else if 'A' ≤ c ∧ c ≤ 'F' then hexEscape start (16 * acc + (v - 55)) n rest
      else fail o (.invalidHexEscape c)
  | _ + 1, [] => fail start .unterminatedText

/-- The characters that letters after a backslash stand for. -/
def escapes : List (Char × Char) :=
  [('\x22', '\x22'), ('\x5c', '\x5c'), ('b', '\x08'), ('f', '\x0c'), ('n', '\n'), ('r', '\r'),
    ('t', '\t')]

/-- What follows a backslash at the end of a line: the blanks and line breaks up to the
next other character are passed over. -/
def joinLines (o : Nat) (c : Char) (cs : List (Nat × Char)) : Except Fault (List (Nat × Char)) :=
  let skip := fun cs : List (Nat × Char) => cs.dropWhile fun x => isBlank x.2 || x.2 == '\n'
  if c = '\n' then .ok (skip cs)
  else
    match cs.dropWhile fun x => isBlank x.2 with
    | [] => .ok []
    | (_, '\n') :: rest => .ok (skip rest)
    | _ => fail o (.invalidEscape c)

/-- What a backslash and the characters after it stand for, and the rest. -/
def escape (start : Nat) (multiline : Bool) :
    List (Nat × Char) → Except Fault (List Char × List (Nat × Char))
  | [] => fail start .unterminatedText
  | (o, c) :: rest => do
    match escapes.find? (·.1 == c) with
    | some e => return ([e.2], rest)
    | none =>
      if c = 'u' ∨ c = 'U' then
        let (v, rest) ← hexEscape start 0 (if c = 'u' then 4 else 8) rest
        if Nat.isValidChar v then return ([Char.ofNat v], rest) else fail o (.invalidEscapeValue v)
      else if multiline ∧ (isBlank c ∨ c = '\n') then return ([], ← joinLines o c rest)
      else fail o (.invalidEscape c)

/-- The quotes that may end a text of several lines: three, and before them up to two that
belong to it. Fewer are part of the text. -/
def closing (quote : Char) (cs : List (Nat × Char)) : Nat × Bool :=
  let n := ((cs.takeWhile fun x => x.2 == quote).take 5).length
  (n, 3 ≤ n)

/-- A text up to its last quote. The number is at least that of the characters left. -/
def textBody (start : Nat) (quote : Char) (multiline : Bool) (acc : List Char) :
    Nat → List (Nat × Char) → Except Fault (String × List (Nat × Char))
  | 0, _ | _, [] => fail start .unterminatedText
  | n + 1, (o, c) :: rest => do
    if c = '\n' then
      if multiline then textBody start quote multiline (c :: acc) n rest
      else fail o .lineBreakInText
    else if c = quote then
      if multiline then
        let (count, closes) := closing quote ((o, c) :: rest)
        let rest := ((o, c) :: rest).drop count
        if closes then
          return (String.ofList ((List.replicate (count - 3) quote ++ acc).reverse), rest)
        else textBody start quote multiline (List.replicate count quote ++ acc) n rest
      else return (String.ofList acc.reverse, rest)
    else if c = '\x5c' ∧ quote = '\x22' then
      let (cs, rest) ← escape start multiline rest
      textBody start quote multiline (cs.reverse ++ acc) n rest
    else if inText c then textBody start quote multiline (c :: acc) n rest
    else fail o (.invalidCharacter c)

/-- A text after its first quote. -/
def text (start : Nat) (quote : Char) (cs : List (Nat × Char)) :
    Except Fault (Token × List (Nat × Char)) := do
  match cs with
  | (_, c) :: rest =>
    if c ≠ quote then
      let (s, rest) ← textBody start quote false [] cs.length cs
      return (.text s false, rest)
    else
      match rest with
      | (_, d) :: rest' =>
        if d = quote then
          let body := match rest' with
            | (_, '\n') :: body => body
            | body => body
          let (s, rest) ← textBody start quote true [] (body.length + 1) body
          return (.text s true, rest)
        else return (.text "" false, rest)
      | [] => return (.text "" false, rest)
  | [] => fail start .unterminatedText

/-- The tokens of one character. -/
def single? : Char → Option Token
  | '\n' => some .lineBreak
  | '=' => some .equals
  | '.' => some .period
  | ',' => some .comma
  | ':' => some .colon
  | '+' => some .plus
  | '\x7b' => some .leftBrace
  | '\x7d' => some .rightBrace
  | '[' => some .leftBracket
  | ']' => some .rightBracket
  | _ => none

/-- The next token with its offset, unless the document is at its end. -/
def next (i : Input) : Except Fault (Option (Nat × Token) × Input) := do
  match i.rest with
  | [] => return (none, i)
  | (o, c) :: rest =>
    let after : Input := { i with rest }
    if isBlank c then
      return (some (o, .blanks (String.ofList (i.takeWhile isBlank))), i.dropWhile isBlank)
    else if c = '#' then return (some (o, .comment), after.dropWhile inComment)
    else if c = '\x27' ∨ c = '\x22' then
      let (t, rest) ← text o c rest
      return (some (o, t), { i with rest })
    else if isWord c then
      return (some (o, .word (String.ofList (i.takeWhile isWord))), i.dropWhile isWord)
    else
      match single? c with
      | some t => return (some (o, t), after)
      | none => fail o (.unexpectedCharacter c)

/-! ### Steps of a parser -/

/-- The input after a token, if that comes next. -/
def eat (i : Input) (t : Token) : Except Fault (Option Input) := do
  let (found, after) ← i.next
  return if found.map (·.2) = some t then some after else none

def endName : String := "eof"

def expect (i : Input) (t : Token) : Except Fault Input := do
  match ← i.next with
  | (some (_, found), after) =>
    if found = t then return after else fail i.offset (.wanted t.name found.name)
  | (none, _) => fail i.length (.wanted t.name endName)

def skipBlanks (i : Input) : Input := i.dropWhile isBlank

/-- A line break, or the end. -/
def endOfLine (i : Input) : Except Fault Input := do
  match ← i.next with
  | (none, i) | (some (_, .lineBreak), i) => return i
  | (some (_, found), _) => fail i.offset (.wanted Token.lineBreak.name found.name)

/-- A comment with the end of its line, if one comes next. -/
def comment (i : Input) : Except Fault (Option Input) := do
  match i.rest with
  | (_, '#') :: rest => return some (← endOfLine (dropWhile { i with rest } inComment))
  | _ => return none

/-- A comment or nothing, up to the end of the line. -/
def restOfLine (i : Input) : Except Fault Input := do
  match ← i.skipBlanks.comment with
  | some i => return i
  | none => i.skipBlanks.endOfLine

/-- Blanks, line breaks and comments. The number is at least that of the characters left. -/
def skipLines : Nat → Input → Except Fault Input
  | 0, i => .ok i
  | n + 1, i => do
    let i := i.skipBlanks
    match ← i.eat .lineBreak with
    | some i => skipLines n i
    | none =>
      match ← i.comment with
      | some i => skipLines n i
      | none => return i

/-- A key: a word, or a text in one line. -/
def key (i : Input) : Except Fault (String × Input) := do
  let wanted := "a table key"
  match ← i.next with
  | (some (_, .word s), after) | (some (_, .text s false), after) => return (s, after)
  | (some (o, .text _ true), _) => fail o .multilineKey
  | (some (_, found), _) => fail i.offset (.wanted wanted found.name)
  | (none, _) => fail i.length (.wanted wanted endName)

/-- Keys with periods between them. The number is at least that of the characters left. -/
def keys (acc : List String) : Nat → Input → Except Fault (List String × Input)
  | 0, i => .ok (acc.reverse, i)
  | n + 1, i => do
    let (k, i) ← i.skipBlanks.key
    let i := i.skipBlanks
    match ← i.eat .period with
    | some i => keys (k :: acc) n i
    | none => return ((k :: acc).reverse, i)

def size (i : Input) : Nat := i.rest.length + 1

end Input

end ColdSigner.Toml
