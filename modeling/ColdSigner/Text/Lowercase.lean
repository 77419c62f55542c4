import ColdSigner.Text.Case

/-! Texts in lower case. -/
namespace ColdSigner.Text

/-- The small form of a letter, by itself. -/
def lowerChar (c : Char) : List Char :=
  let v := c.toNat
  if v = 0x130 then ['i', Char.ofNat 0x307]
  else
    match caseRuns.find? (·.has v) with
    | some r => [Char.ofNat (r.lower + (v - r.first))]
    | none => [c]

/-- Whether the first character that counts is a letter with case. -/
def meetsCased (s : List Char) : Bool :=
  match s.dropWhile isCaseIgnorable with
  | c :: _ => isCased c
  | [] => false

/-- The small form of a letter between the characters before it, from the nearest on,
and those after it: a sigma at the end of a word has a form of its own. -/
def lowerBetween (before : List Char) (c : Char) (after : List Char) : List Char :=
  if c = 'Σ' then if meetsCased before && !meetsCased after then ['ς'] else ['σ']
  else lowerChar c

def lowercase (s : List Char) : List Char := go [] [] s
where
  go (before acc : List Char) : List Char → List Char
    | [] => acc.reverse
    | c :: rest => go (c :: before) ((lowerBetween before c rest).reverse ++ acc) rest

end ColdSigner.Text
