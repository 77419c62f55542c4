import ColdSigner.Toml.Token

/-! The values of a TOML document. -/
namespace ColdSigner.Toml

inductive Value where
  | text (start : Nat) (s : String)
  | integer (start : Nat) (v : Int)
  | decimal (start : Nat) (digits : String)
  | bool (start : Nat) (b : Bool)
  | date (start : Nat)
  | array (start : Nat) (items : List Value)
  /-- A table within a line; its keys are in braces, or `dotted` with periods. -/
  | table (start : Nat) (dotted : Bool) (entries : List (String × Value))
  /-- A table with a header of its own. -/
  | section (entries : List (String × Value))
  /-- Tables that share a header in double brackets. -/
  | sections (items : List Value)

namespace Value

/-- What the value is called where another is wanted. -/
def name : Value → String
  | .text .. => "string"
  | .integer .. => "integer"
  | .decimal .. => "float"
  | .bool .. => "boolean"
  | .date _ => "datetime"
  | .array .. | .sections _ => "array"
  | .table _ false _ => "inline table"
  | .table _ true _ => "dotted table"
  | .section _ => "table"

def start? : Value → Option Nat
  | .text o _ | .integer o _ | .decimal o _ | .bool o _ | .date o | .array o _ | .table o _ _ =>
    some o
  | .section _ | .sections _ => none

def found : Value → Found
  | .text _ s => .text s
  | .integer _ v => .integer v
  | .decimal _ d => .decimal d
  | .bool _ b => .bool b
  | .array .. | .sections _ => .sequence
  | .date _ | .table .. | .section _ => .map

end Value

/-! ### Numbers -/

namespace Number

/-- The value of a digit to a base. -/
def digit? (base : Nat) (c : Char) : Option Nat :=
  let v := c.toNat
  let d := if '0' ≤ c ∧ c ≤ '9' then v - 48
    else if 'a' ≤ c ∧ c ≤ 'f' then v - 87
    else if 'A' ≤ c ∧ c ≤ 'F' then v - 55
    else base
  if d < base then some d else none

/-- What was read of a row of digits. -/
structure Row where
  digits : List Nat := []
  /-- Whether the first digit is a zero that no other may follow. -/
  closed : Bool := false
  /-- Whether an underscore came last. -/
  gap : Bool := false

/-- Digits with single underscores between them, the first at `offset`, and what follows
them. `closing` forbids zeros in front. -/
def row (start base : Nat) (closing : Bool) (r : Row) (offset : Nat) :
    List Char → Except Fault (List Nat × List Char)
  | [] => finish []
  | c :: rest =>
    match digit? base c with
    | some d =>
      if r.closed then Input.fail offset .invalidNumber
      else
        let closed := closing && r.digits.isEmpty && d == 0
        row start base closing ⟨d :: r.digits, closed, false⟩ (offset + 1) rest
    | none =>
      if c = '_' ∧ r.digits = [] then Input.fail offset .invalidNumber
      else if c = '_' ∧ r.gap = false then
        row start base closing { r with gap := true } (offset + 1) rest
      else finish (c :: rest)
where
  finish (rest : List Char) : Except Fault (List Nat × List Char) :=
    if r.digits = [] ∨ r.gap then Input.fail start .invalidNumber
    else .ok (r.digits.reverse, rest)

/-- A sign, if one may lead and does. -/
def sign (s : List Char) : Bool × List Char :=
  match s with
  | '-' :: rest => (true, rest)
  | '+' :: rest => (false, rest)
  | _ => (false, s)

/-- A row of decimal digits after a sign. -/
def signedRow (start : Nat) (closing : Bool) (s : List Char) :
    Except Fault (Bool × List Nat × List Char) := do
  let (negative, rest) := sign s
  let (ds, rest) ← row start 10 closing {} (start + (s.length - rest.length)) rest
  return (negative, ds, rest)

def ofDigits (base : Nat) (ds : List Nat) : Nat := ds.foldl (fun v d => base * v + d) 0

/-- A whole number of 64 bits. -/
def checkRange (start : Nat) (v : Int) : Except Fault Int :=
  if Int64.minValue.toInt ≤ v ∧ v ≤ Int64.maxValue.toInt then .ok v
  else Input.fail start .invalidNumber

def decimalInteger (start : Nat) (s : List Char) : Except Fault Int := do
  let (negative, ds, rest) ← signedRow start true s
  if rest ≠ [] then Input.fail start .invalidNumber
  else
    let v : Int := ofDigits 10 ds
    checkRange start (if negative then -v else v)

/-- Digits to another base, after the two characters that tell it. -/
def basedInteger (start base : Nat) (s : List Char) : Except Fault Int := do
  let start := start + 2
  let (ds, rest) ← row start base false {} start (s.drop 2)
  if rest ≠ [] then Input.fail start .invalidNumber else checkRange start (ofDigits base ds)

/-- The digits of a decimal, written out: those before and after the point. -/
def writeOut (negative : Bool) (digits : List Nat) (point : Int) : String :=
  let digits := (digits.map fun d => Char.ofNat (48 + d))
  let whole := if point ≤ 0 then [] else
    (digits ++ List.replicate (point.toNat - digits.length) '0').take point.toNat
  let fraction := List.replicate (-point).toNat '0' ++ digits.drop point.toNat
  let whole := whole.dropWhile (· == '0')
  let fraction := (fraction.reverse.dropWhile (· == '0')).reverse
  let orZero (s : List Char) := if s.isEmpty then ['0'] else s
  String.ofList ((if negative then ['-'] else []) ++ orZero whole ++ '.' :: orZero fraction)

/-- The exponent of the least power of ten that passes every number of 64-bit floating point. -/
def maxExponent : Nat := 309

/-- The least number that rounds to infinity in 64-bit floating point. -/
def infinity : Nat := Nat.pow 2 1024 - Nat.pow 2 970

/-- A number with a fraction or an exponent: its digits without the point are `digits`,
and the point stands before the one at `point`. -/
def decimal (start : Nat) (negative : Bool) (digits : List Nat) (point : Int) :
    Except Fault String :=
  let leading := (digits.takeWhile (· == 0)).length
  let significant := digits.drop leading
  let top := point - leading
  if significant = [] ∨ top < -400 then .ok (writeOut negative [] 0)
  else if maxExponent < top then Input.fail start .invalidNumber
  else
    let v := ofDigits 10 significant
    let shift := top - significant.length
    let overflows := if 0 ≤ shift then infinity ≤ v * Nat.pow 10 shift.toNat
      else infinity * Nat.pow 10 (-shift).toNat ≤ v
    if overflows then Input.fail start .invalidNumber else .ok (writeOut negative significant top)

/-- A decimal: its word up to the point, and what follows the point if there is one. -/
def read (start : Nat) (s : List Char) (afterPoint : Option (Nat × List Char)) (i : Input) :
    Except Fault (String × Input) := do
  let (negative, whole, suffix) ← signedRow start true s
  let (fraction, suffix) ← match afterPoint with
    | none => pure ([], suffix)
    | some (o, after) =>
      if suffix ≠ [] then Input.fail start .invalidNumber else row o 10 false {} o after
  let digits := whole ++ fraction
  let wordEnd := match afterPoint with
    | none => start + s.length
    | some (o, after) => o + after.length
  match suffix with
  | [] => return (← decimal start negative digits whole.length, i)
  | e :: power =>
    if e ≠ 'e' ∧ e ≠ 'E' then Input.fail start .invalidNumber
    else
      let (negativePower, ds, rest, i) ← if power = [] then do
          let i := (← i.eat .plus).getD i
          match ← i.next with
          | (some (o, .word w), i) =>
            let (ds, rest) ← row o 10 false {} o w.toList
            pure (false, ds, rest, i)
          | _ => Input.fail start .invalidNumber
        else do
          let (n, ds, rest) ← signedRow (wordEnd - power.length) false power
          pure (n, ds, rest, i)
      if rest ≠ [] then Input.fail start .invalidNumber
      else
        let p : Int := ofDigits 10 ds
        let point := whole.length + (if negativePower then -p else p)
        return (← decimal start negative digits point, i)

end Number

namespace Value

/-- The words that are no finite number. -/
def nonFinite : List (String × String) :=
  [("inf", "inf"), ("-inf", "-inf"), ("nan", "NaN"), ("-nan", "NaN")]

/-- The number that a word at `start` begins. -/
def ofNumber (start : Nat) (s : List Char) (i : Input) : Except Fault (Value × Input) := do
  let based (base : Nat) : Except Fault (Value × Input) := do
    return (.integer start (← Number.basedInteger start base s), i)
  match s with
  | '0' :: 'x' :: _ => based 16
  | '0' :: 'o' :: _ => based 8
  | '0' :: 'b' :: _ => based 2
  | _ =>
    if s.contains 'e' || s.contains 'E' then
      let (d, i) ← Number.read start s none i
      return (.decimal start d, i)
    else
      match ← i.eat .period with
      | some i =>
        match ← i.next with
        | (some (o, .word w), after) =>
          let (d, i) ← Number.read start s (some (o, w.toList)) after
          return (.decimal o d, i)
        | _ => Input.fail i.offset .invalidNumber
      | none =>
        match nonFinite.find? (·.1 == String.ofList s) with
        | some e => return (.decimal start e.2, i)
        | none => return (.integer start (← Number.decimalInteger start s), i)

/-- The rest of a date or a time, which is read no further than its signs. -/
def ofDate (start : Nat) (afterColon : Bool) (i : Input) : Except Fault (Value × Input) := do
  let word (i : Input) : Except Fault Input := do
    match ← i.next with
    | (some (_, .word _), i) => return i
    | _ => Input.fail start .invalidDate
  let wordAfter (t : Token) (i : Input) : Except Fault Input := do
    match ← i.eat t with
    | some i => word i
    | none => return i
  let i := match i.next with
    | .ok (some (_, .blanks " "), next) =>
      match next.next with
      | .ok (some (_, .word _), after) => after
      | _ => i
    | _ => i
  let minutes ← if afterColon then pure (some i) else i.eat .colon
  match minutes with
  | none => return (.date start, i)
  | some i =>
    let i ← word i
    let i ← word (← i.expect .colon)
    let i ← wordAfter .period i
    let i ← wordAfter .plus i
    let i ← wordAfter .colon i
    return (.date start, i)

/-- Whether a word looks like the start of a date. -/
def looksLikeDate (s : List Char) : Bool :=
  s.contains 'T' || s.contains 't'
    || ((s.drop 1).contains '-'
      && !Text.containsChars ['e', '-'] s && !Text.containsChars ['E', '-'] s)

/-- The value that a word at `start` begins. -/
def ofWord (start : Nat) (w : String) (i : Input) : Except Fault (Value × Input) := do
  let s := w.toList
  let numeric := match s with
    | c :: _ => c == '-' || ('0' ≤ c && c ≤ '9')
    | [] => false
  if w = "true" then return (.bool start true, i)
  else if w = "false" then return (.bool start false, i)
  else if w ≠ "inf" ∧ w ≠ "nan" ∧ numeric = false then Input.fail start .unquotedText
  else if looksLikeDate s then ofDate start false i
  else
    match ← i.eat .colon with
    | some i => ofDate start true i
    | none => ofNumber start s i

/-- Entries with another one below keys that were joined by periods. -/
def insertDotted (value : Value) : List String → List (String × Value) →
    Except Fault (List (String × Value))
  | [], entries => .ok entries
  | [k], entries => .ok (entries ++ [(k, value)])
  | k :: rest, entries =>
    match entries.span fun e => e.1 != k with
    | (before, (k, .table start true inner) :: after) => do
      return before ++ (k, .table start true (← insertDotted value rest inner)) :: after
    | (_, (_, v) :: _) => .error { cause := .extendsValue, offset := v.start? }
    | (before, []) => do
      return before ++ [(k, .table (value.start?.getD 0) true (← insertDotted value rest []))]

abbrev Reader := Input → Except Fault (Value × Input)

/-- Values with commas between them, up to the closing bracket. The number is at least that
of the characters left. -/
def items (read : Reader) (acc : List Value) : Nat → Input → Except Fault (List Value × Input)
  | 0, i => Input.fail i.offset .unexpectedEnd
  | n + 1, i => do
    let i ← i.skipLines i.size
    match ← i.eat .rightBracket with
    | some i => return (acc.reverse, i)
    | none =>
      let (v, i) ← read i
      let i ← i.skipLines i.size
      match ← i.eat .comma with
      | some i => items read (v :: acc) n i
      | none => return ((v :: acc).reverse, ← i.expect .rightBracket)

/-- A key, an equals sign and a value. -/
def assignment (read : Reader) (i : Input) : Except Fault (List String × Value × Input) := do
  let (ks, i) ← i.keys [] i.size
  let i ← i.skipBlanks.expect .equals
  let (v, i) ← read i.skipBlanks
  return (ks, v, i)

/-- Assignments with commas between them, up to the closing brace. The number is at least
that of the characters left. -/
def assignments (read : Reader) (acc : List (String × Value)) :
    Nat → Input → Except Fault (List (String × Value) × Input)
  | 0, i => Input.fail i.offset .unexpectedEnd
  | n + 1, i => do
    let (ks, v, i) ← assignment read i
    let acc ← insertDotted v ks acc
    let i := i.skipBlanks
    match ← i.eat .rightBrace with
    | some i => return (acc, i)
    | none =>
      let i ← i.expect .comma
      assignments read acc n i.skipBlanks

/-- A value nested in no more than `n` others. -/
def read : Nat → Reader
  | 0, i => Input.fail i.offset .unexpectedEnd
  | n + 1, i => do
    match ← i.next with
    | (some (o, .text s _), i) => return (.text o s, i)
    | (some (o, .word w), i) => ofWord o w i
    | (some (o, .plus), i) =>
      match ← i.next with
      | (some (_, .word w), after) => ofNumber o w.toList after
      | _ => Input.fail i.offset .invalidNumber
    | (some (o, .leftBracket), i) =>
      let (vs, i) ← items (read n) [] i.size i
      return (.array o vs, i)
    | (some (o, .leftBrace), i) =>
      let i := i.skipBlanks
      match ← i.eat .rightBrace with
      | some i => return (.table o false [], i)
      | none =>
        let (es, i) ← assignments (read n) [] i.size i
        return (.table o false es, i)
    | (some (_, found), _) => Input.fail i.offset (.wanted "a value" found.name)
    | (none, _) => Input.fail i.length .unexpectedEnd

end Value

end ColdSigner.Toml
