import ColdSigner.Toml.Value

/-! TOML documents.

A document is read line by line into tables, each with its header, and these are put
together to one value. A table may be told once, though its parts may be told apart;
keys are not compared. -/
namespace ColdSigner.Toml

/-- The assignments below one header. -/
structure TableBlock where
  /-- Where the header stands. -/
  start : Nat
  header : List String
  isArray : Bool
  entries : List (String × Value)

/-- The keys of a header after its brackets, and the rest of the line. -/
def readHeader (isArray : Bool) (i : Input) : Except Fault (List String × Input) := do
  let (ks, i) ← i.keys [] i.size
  let i ← i.expect .rightBracket
  let i ← if isArray then i.expect .rightBracket else pure i
  return (ks, ← i.restOfLine)

/-- The blocks of a document, the last of which is still open. The number is at least that
of the characters left. -/
def readBlocks (done : List TableBlock) (current : TableBlock) :
    Nat → Input → Except Fault (List TableBlock)
  | 0, i => Input.fail i.offset .unexpectedEnd
  | n + 1, i => do
    let i ← i.skipLines i.size
    match ← i.next with
    | (none, _) => return (current :: done).reverse
    | (some (o, .leftBracket), i) =>
      let after ← i.eat .leftBracket
      let (header, i) ← readHeader after.isSome (after.getD i)
      readBlocks (current :: done) ⟨o, header, after.isSome, []⟩ n i
    | _ =>
      let (ks, v, i) ← Value.assignment (Value.read i.size) i
      let i ← i.restOfLine
      readBlocks done { current with entries := ← Value.insertDotted v ks current.entries } n i

/-- The blocks of a document. The one in front has no header and is left out if empty. -/
def blocks (s : String) : Except Fault (List TableBlock) := do
  let i := Input.ofString s
  let all ← readBlocks [] ⟨0, [], false, []⟩ i.size i
  return all.filter fun b => !(b.header.isEmpty && b.entries.isEmpty)

/-- Cuts blocks before each that opens another element of the array at `header`. -/
def elements (header : List String) : List TableBlock → List (List TableBlock)
  | [] => []
  | b :: rest =>
    match elements header rest with
    | [] => [[b]]
    | group :: groups =>
      match group with
      | next :: _ =>
        if next.isArray ∧ next.header = header then [b] :: group :: groups
        else (b :: group) :: groups
      | [] => [b] :: groups

/-- The entries of the table whose header has `depth` keys. All blocks share these keys;
`told` tells whether the table itself came before. -/
def assemble : Nat → Nat → Bool → List TableBlock → Except Fault (List (String × Value))
  | 0, _, _, _ | _, _, _, [] => .ok []
  | n + 1, depth, told, b :: rest => do
    match b.header.drop depth with
    | [] =>
      if told then
        .error { cause := .duplicateTable (".".intercalate b.header), offset := some b.start }
      else if b.isArray then .error { cause := .tableAsArray, offset := some b.start }
      else return b.entries ++ (← assemble n depth true rest)
    | key :: deeper =>
      let (group, others) := (b :: rest).partition fun x => (x.header.drop depth).head? = some key
      let below (r : Except Fault (List (String × Value))) := (r.mapError (·.under key))
      let value ← if b.isArray ∧ deeper = [] then do
          let tables ← (elements b.header group).mapM fun blocks =>
            match blocks with
            | [] => .ok (.section [])
            | first :: inner => do
              return .section (first.entries ++ (← below (assemble n (depth + 1) true inner)))
          pure (Value.sections tables)
        else do
          pure (Value.section (← below (assemble n (depth + 1) false group)))
      return (key, value) :: (← assemble n depth told others)

/-- A bound on the steps that put blocks together. -/
def steps (bs : List TableBlock) : Nat :=
  bs.foldl (fun n b => n + b.header.length + 2) 1

structure Document where
  entries : List (String × Value)
  /-- Where the last table starts. -/
  lastTable : Option Nat
  /-- The only table, of a document with no other. -/
  onlyTable : Option TableBlock

def Document.parse (s : String) : Except Fault Document := do
  let bs ← blocks s
  let onlyTable := match bs with
    | [b] => some b
    | _ => none
  return ⟨← assemble (steps bs) 0 false bs, bs.getLast?.map (·.start), onlyTable⟩

end ColdSigner.Toml
