/-! Blank characters, as the Unicode property White_Space lists them. -/
namespace ColdSigner.Text

def isBlank (c : Char) : Bool :=
  let v := c.toNat
  (9 ≤ v && v ≤ 13) || v == 0x20 || v == 0x85 || v == 0xA0 || v == 0x1680
    || (0x2000 ≤ v && v ≤ 0x200A) || v == 0x2028 || v == 0x2029 || v == 0x202F
    || v == 0x205F || v == 0x3000

/-- A text without the blanks at its two ends. -/
def trimChars (s : List Char) : List Char :=
  ((s.dropWhile isBlank).reverse.dropWhile isBlank).reverse

def trim (s : String) : String := String.ofList (trimChars s.toList)

/-- The runs between separators, in order: one more than there are separators. -/
def splitOn (isSeparator : Char → Bool) (s : List Char) : List (List Char) :=
  go [] [] s
where
  go (run : List Char) (runs : List (List Char)) : List Char → List (List Char)
    | [] => (run.reverse :: runs).reverse
    | c :: rest =>
      if isSeparator c then go [] (run.reverse :: runs) rest else go (c :: run) runs rest

/-- The words between blanks. -/
def words (s : List Char) : List (List Char) :=
  (splitOn isBlank s).filter (!·.isEmpty)

/-- What follows `lead` in `s`, where `s` starts with it. -/
def dropLead? : List Char → List Char → Option (List Char)
  | [], s => some s
  | _ :: _, [] => none
  | l :: lead, c :: s => if l = c then dropLead? lead s else none

/-- Whether `part` stands in a text. -/
def containsChars (part : List Char) : List Char → Bool
  | [] => part.isEmpty
  | c :: rest => part.isPrefixOf (c :: rest) || containsChars part rest

/-- `s` with every `old`, found from the left and not overlapping, replaced by `new`. -/
def replaceAll (old new : List Char) (s : List Char) : List Char :=
  if old.isEmpty then s else go s.length [] s
where
  go : Nat → List Char → List Char → List Char
    | 0, acc, s => acc.reverse ++ s
    | _ + 1, acc, [] => acc.reverse
    | n + 1, acc, c :: rest =>
      match dropLead? old (c :: rest) with
      | some rest' => go n (new.reverse ++ acc) rest'
      | none => go n (c :: acc) rest

end ColdSigner.Text
