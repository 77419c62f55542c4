import ColdSigner.CommandLine.Command

/-! Help on the command line. -/
namespace ColdSigner.CommandLine

def programName : String := "airgap-cli"

/-- How the value of an option is called. -/
def placeholder (name : String) : String :=
  String.ofList (name.toList.map fun c => if c = '-' then '_' else c.toUpper)

def OptionForm.usage (o : OptionForm) : String :=
  "--" ++ o.name ++ " <" ++ placeholder o.name ++ ">"

def OperandForm.usage (o : OperandForm) : String :=
  (if o.isRequired then "<" ++ placeholder o.name ++ ">" else "[" ++ placeholder o.name ++ "]")
    ++ (if o.isRepeatable then "..." else "")

/-- Entries in two columns, with a line of `title` above them. -/
def columns (title : String) (entries : List (String × String)) : List String :=
  let width := entries.foldl (fun n e => max n e.1.length) 0
  let line (e : String × String) :=
    "  " ++ e.1 ++ String.ofList (List.replicate (width + 2 - e.1.length) ' ') ++ e.2
  if entries.isEmpty then [] else "" :: (title ++ ":") :: entries.map line

def OptionForm.entry (o : OptionForm) : String × String :=
  ("    " ++ o.usage, o.about ++ (if o.notes.isEmpty then "" else " " ++ o.notes))

def helpEntry : String × String := ("-h, --help", "Print help")

/-- What the word that asks for help does. -/
def helpAbout : String := "Print this message or the help of the given subcommand(s)"

def usageLine (parts : List String) : String := "Usage: " ++ " ".intercalate (programName :: parts)

def CommandForm.help (f : CommandForm) : List String :=
  let required := (f.options.filter (·.isRequired)).map OptionForm.usage
  let optional := if f.options.all (·.isRequired) then [] else ["[OPTIONS]"]
  let operand := f.operand.toList.map OperandForm.usage
  [f.about, "", usageLine (f.name :: optional ++ required ++ operand)]
    ++ columns "Arguments" (f.operand.toList.map fun o => (o.usage, o.about))
    ++ columns "Options" (f.options.map OptionForm.entry ++ [helpEntry])

def generalHelp : List String :=
  ["Air-gapped signer command line utility", "", usageLine ["[OPTIONS]", "<COMMAND>"]]
    ++ columns "Commands" (forms.map (fun f => (f.name, f.about)) ++ [(helpName, helpAbout)])
    ++ columns "Options" (globalForms.map OptionForm.entry ++ [helpEntry])

/-- The lines of help on a subcommand, or on all of them. -/
def helpLines (topic : Option String) : List String :=
  match topic.bind fun t => forms.find? (·.name == t) with
  | some f => f.help
  | none => generalHelp

end ColdSigner.CommandLine
