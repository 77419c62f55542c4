import ColdSigner.Key.Path

/-! Names for paths, and the next free path. -/
namespace ColdSigner.DerivationPath

/-- A code as it is shown: numerals up to 32 bits lose their leading zeros. -/
def shownCode (code : List Char) : List Char :=
  match Text.numeral? Text.max32 code with
  | some n => (toString n).toList
  | none => code

/-- The parts of a text between two slashes in a row, from the left. -/
def hardParts (s : List Char) : List (List Char) := go [] [] s
where
  go (part : List Char) (parts : List (List Char)) : List Char → List (List Char)
    | '/' :: '/' :: rest => go [] (part.reverse :: parts) rest
    | c :: rest => go (c :: part) parts rest
    | [] => (part.reverse :: parts).reverse

/-- A hard code followed by its soft codes, each opening a bracket. -/
def partName (part : List Char) : List Char :=
  match Text.splitOn (· == '/') part with
  | [] => []
  | first :: soft =>
    let opened := soft.flatMap fun s => [' ', '('] ++ shownCode s
    let closed := if soft.isEmpty then [' '] else soft.flatMap fun _ => [')', ' ']
    shownCode first ++ opened ++ closed

/-- A name for a path, empty for what is no path. -/
def suggestName (s : String) : String :=
  match parse? s with
  | none => ""
  | some p =>
    let parts := (hardParts p.chars).filter (!·.isEmpty)
    String.ofList (Text.trimChars (parts.flatMap partName))

/-- The number of a numbered hard child of `path`. -/
def childIndex? (path : List Char) (existing : List Char) : Option Nat := do
  let rest ← Text.dropLead? path existing
  let code ← Text.dropLead? ['/', '/'] rest
  Text.numeral? Text.max32 code

/-- The numbered hard child of `path` after all that exist; the last number has
no successor. -/
def suggestNext (path : String) (existing : List String) : String :=
  let indices := existing.filterMap fun e => childIndex? path.toList e.toList
  let next := indices.foldl (fun next i => max next (min (i + 1) Text.max32)) 0
  path ++ "//" ++ toString next

end ColdSigner.DerivationPath
