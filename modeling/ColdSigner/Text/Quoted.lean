import ColdSigner.Text.Blank

/-! Characters and texts between quotes, as messages show what they complain about. -/
namespace ColdSigner.Text

/-- The hexadecimal digits of a number. -/
def hexDigits (v : Nat) : List Char := Nat.toDigits 16 v

/-- A character by its number. -/
def byNumber (c : Char) : List Char := ['\x5c', 'u', '\x7b'] ++ hexDigits c.toNat ++ ['\x7d']

/-- The letter that stands for a control character after a backslash. -/
def controlLetter? (c : Char) : Option Char :=
  if c = '\t' then some 't'
  else if c = '\n' then some 'n'
  else if c = '\r' then some 'r'
  else none

/-- Ranges of characters that leave no mark of their own. -/
def unmarkedRanges : List (Nat × Nat) :=
  [(0, 0x1F), (0x7F, 0x9F), (0xAD, 0xAD), (0x300, 0x36F), (0x200B, 0x200F), (0x202A, 0x202E),
    (0x2060, 0x206F), (0xE000, 0xF8FF), (0xFE00, 0xFE0F), (0xFEFF, 0xFEFF), (0xFFF0, 0xFFFB)]

def leavesMark (c : Char) : Bool :=
  c == ' ' || (!isBlank c && unmarkedRanges.all fun r => c.toNat < r.1 || r.2 < c.toNat)

/-- A character between quotes of one kind, the other kind of quote being as good as
any character. -/
def escapeMarked (quote c : Char) : List Char :=
  if c = '\x00' then ['\x5c', '0']
  else
    match controlLetter? c with
    | some l => ['\x5c', l]
    | none =>
      if c = '\x5c' ∨ c = quote then ['\x5c', c]
      else if leavesMark c then [c]
      else byNumber c

def quoteChar (c : Char) : String := String.ofList ('\x27' :: escapeMarked '\x27' c ++ ['\x27'])

def quoteText (s : String) : String :=
  String.ofList ('\x22' :: s.toList.flatMap (escapeMarked '\x22') ++ ['\x22'])

/-- A character in ASCII: both kinds of quotes and all that is not ASCII are escaped. -/
def escapeAscii (c : Char) : List Char :=
  match controlLetter? c with
  | some l => ['\x5c', l]
  | none =>
    if c = '\x5c' ∨ c = '\x27' ∨ c = '\x22' then ['\x5c', c]
    else if ' ' ≤ c ∧ c ≤ '~' then [c]
    else byNumber c

end ColdSigner.Text
