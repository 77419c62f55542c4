/-! The grammar of the command line.

An option is written `--name value` or `--name=value`; a value of its own word does not
begin with a dash. What does not begin with a dash is an operand, and after a word of
two dashes everything is. -/
namespace ColdSigner.CommandLine

structure OptionForm where
  name : String
  about : String
  isRequired : Bool := false
  /-- Whether it may be given more than once. -/
  isRepeatable : Bool := false
  /-- What help adds about its value. -/
  notes : String := ""
  /-- Whether a text is a value of it. -/
  accepts : String → Bool := fun _ => true

structure OperandForm where
  name : String
  about : String
  isRequired : Bool := false
  isRepeatable : Bool := false
  accepts : String → Bool := fun _ => true

/-- What a subcommand takes. -/
structure CommandForm where
  name : String
  about : String
  operand : Option OperandForm := none
  options : List OptionForm

/-- Why no command is run. -/
inductive Refused where
  /-- The words are not well formed. -/
  | usage
  /-- Help is asked for, of a subcommand or of all of them. -/
  | help (command : Option String)
  deriving DecidableEq, Repr

/-- A word by its dashes. -/
inductive Word where
  /-- Two dashes and nothing else. -/
  | escape
  | long (name : String) (value : Option String)
  | short (letters : List Char)
  | plain (s : String)
  deriving DecidableEq, Repr

def Word.ofString (s : String) : Word :=
  match s.toList with
  | ['-', '-'] => .escape
  | '-' :: '-' :: rest =>
    match rest.span (· != '=') with
    | (name, '=' :: value) => .long (String.ofList name) (some (String.ofList value))
    | (name, _) => .long (String.ofList name) none
  | '-' :: c :: rest => .short (c :: rest)
  | _ => .plain s

/-- Options in order and operands in order. -/
structure Words where
  options : List (String × String) := []
  operands : List String := []

/-- Whether a value may follow an option as a word of its own. -/
def isValue (s : String) : Bool :=
  match Word.ofString s with
  | .plain _ => true
  | _ => false

namespace Words

def values (w : Words) (name : String) : List String :=
  w.options.filterMap fun o => if o.1 = name then some o.2 else none

def value? (w : Words) (name : String) : Option String := (w.values name).head?

/-- The words with one more option, if that may stand there. -/
def addOption (forms : List OptionForm) (w : Words) (name value : String) : Except Refused Words :=
  match forms.find? (·.name == name) with
  | some o =>
    if o.accepts value && (o.isRepeatable || (w.values name).isEmpty) then
      .ok { w with options := w.options ++ [(name, value)] }
    else .error .usage
  | none => .error .usage

/-- The words with one more operand, if that may stand there. -/
def addOperand (form : Option OperandForm) (w : Words) (s : String) : Except Refused Words :=
  match form with
  | some o =>
    if o.accepts s && (o.isRepeatable || w.operands.isEmpty) then
      .ok { w with operands := w.operands ++ [s] }
    else .error .usage
  | none => .error .usage

/-- Whether nothing is missing. -/
def isComplete (w : Words) (f : CommandForm) : Bool :=
  (f.options.all fun o => !o.isRequired || !(w.values o.name).isEmpty)
    && f.operand.all fun o => !o.isRequired || !w.operands.isEmpty

end Words

/-- The words of a subcommand from the left. Help is given where it is asked for, unless
something before it is wrong; what is missing then does not matter. -/
def CommandForm.readWords (f : CommandForm) (w : Words) : List String → Except Refused Words
  | [] => .ok w
  | s :: rest =>
    match Word.ofString s with
    | .escape => rest.foldlM (Words.addOperand f.operand) w
    | .long "help" none | .short ('h' :: _) => .error (.help (some f.name))
    | .short _ => .error .usage
    | .long name (some v) => do f.readWords (← w.addOption f.options name v) rest
    | .long name none =>
      match rest with
      | v :: rest =>
        if isValue v then do f.readWords (← w.addOption f.options name v) rest else .error .usage
      | [] => .error .usage
    | .plain s => do f.readWords (← w.addOperand f.operand s) rest

/-- The words of a subcommand, of which none is missing. -/
def CommandForm.read (f : CommandForm) (args : List String) : Except Refused Words := do
  let w ← f.readWords {} args
  if w.isComplete f then return w else .error .usage

/-- The words up to the name of a subcommand. -/
structure Lead where
  words : Words
  /-- An option right before the name, with its value as a word of its own. -/
  last : Option (String × String)
  name : String
  /-- The words after the name. -/
  rest : List String

namespace Lead

/-- The words with an option that still waits to be looked at. -/
def settle (forms : List OptionForm) (w : Words) : Option (String × String) → Except Refused Words
  | some (name, v) => w.addOption forms name v
  | none => .ok w

/-- Reads words up to the first operand. A value as a word of its own is looked at only when
the next option is read. -/
def read (forms : List OptionForm) (w : Words) (last : Option (String × String)) :
    List String → Except Refused Lead
  | [] => .error .usage
  | s :: rest =>
    match Word.ofString s with
    | .plain name => .ok ⟨w, last, name, rest⟩
    | .escape => .error .usage
    | .long "help" none | .short ('h' :: _) => do
      let _ ← settle forms w last
      .error (.help none)
    | .short _ => .error .usage
    | .long name (some v) => do
      let w ← settle forms w last
      read forms (← w.addOption forms name v) none rest
    | .long name none =>
      match rest with
      | v :: rest =>
        if isValue v && forms.any (·.name == name) then do
          read forms (← settle forms w last) (some (name, v)) rest
        else .error .usage
      | [] => .error .usage

/-- All options of the words, the last one too. -/
def allWords (l : Lead) (forms : List OptionForm) : Except Refused Words :=
  settle forms l.words l.last

end Lead

end ColdSigner.CommandLine
