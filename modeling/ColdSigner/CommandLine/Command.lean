import ColdSigner.Bytes.Base64
import ColdSigner.CommandLine.Grammar
import ColdSigner.Config

/-! The commands of the command line. -/
namespace ColdSigner.CommandLine

/-! ### Values -/

abbrev Read (α : Type) := String → Option α

/-- Whether a reader reads a text. -/
def Read.accepts {α : Type} (read : Read α) (s : String) : Bool := (read s).isSome

/-- A text without the `0x`s in front. -/
def dropHexMark : List Char → List Char
  | '0' :: 'x' :: rest => dropHexMark rest
  | s => s

def readHex : Read Bytes := fun s => (Hex.decode (String.ofList (dropHexMark s.toList))).toOption

/-- Bytes in hexadecimal, or in base64 after a mark. -/
def readBytes : Read Bytes := fun s =>
  match Text.dropLead? "b64:".toList s.toList with
  | some rest => Base64.decode? (String.ofList rest)
  | none => readHex s

def readNetwork : Read NetworkId := fun s => (readHex s).bind (FixedBytes.ofBytes? 32)

/-- The path of a file. -/
def readFile : Read String := fun s => if s.isEmpty then none else some s

/-- A number of 16 bits; a zero may have a minus in front. -/
def readFormat : Read UInt16 := fun s =>
  let n := match s.toList with
    | '-' :: rest =>
      if rest.head? = some '+' then none else (Text.numeral? Text.max64 rest).filter (· == 0)
    | s => Text.numeral? Text.max16 s
  n.map UInt16.ofNat

def readCapacity : Read Nat := fun s => Text.numeral? Text.max64 s.toList

def schemeNames : List (String × Scheme) :=
  [("sr25519", .sr25519), ("ed25519", .ed25519), ("ecdsa", .ecdsa)]

def readScheme : Read Scheme := fun s => (schemeNames.find? (·.1 == s)).map (·.2)

/-! ### Forms -/

def phraseForm : OptionForm :=
  { name := "phrase", about := "BIP-39 seed phrase", isRequired := true
    notes := "[env: AIRGAP_PHRASE]" }

def pathForm : OptionForm :=
  { name := "path", about := "Derivation path, eg. \x60//westend//0///password\x60"
    notes := "[default: ]" }

def networkForm : OptionForm :=
  { name := "network", about := "Network genesis hash", isRequired := true
    accepts := Read.accepts readNetwork }

def metadataForm : OptionForm :=
  { name := "metadata", about := "Metadata blob files for the network", isRequired := true
    isRepeatable := true, accepts := Read.accepts readFile }

def inputForm : OptionForm :=
  { name := "input", about := "Request file (binary, or hex for \x60.hex\x60 files)"
    accepts := Read.accepts readFile }

def payloadForm : OperandForm :=
  { name := "payload", about := "Hex or base64 (\x60b64:\x60 prefixed) encoded request"
    accepts := Read.accepts readBytes }

def decodeForm : CommandForm :=
  { name := "decode", about := "Decode a signing request, printing cards as JSON"
    operand := some payloadForm
    options := [networkForm, metadataForm, inputForm,
      { name := "output", about := "Output file (\x60.json\x60), defaults to stdout"
        accepts := Read.accepts readFile }] }

def encodeFramesForm : CommandForm :=
  { name := "qr-encode", about := "Split a payload into QR frames"
    operand := some payloadForm
    options := [inputForm,
      { name := "capacity", about := "Maximum bytes per frame, overrides configuration"
        accepts := Read.accepts readCapacity }] }

def decodeFramesForm : CommandForm :=
  { name := "qr-decode", about := "Reassemble a payload from QR frames (in any order)"
    operand := some { name := "frames", about := "Hex encoded frames", isRequired := true
                      isRepeatable := true, accepts := Read.accepts readBytes }
    options := [] }

def deriveForm : CommandForm :=
  { name := "derive", about := "Derive a public key and address"
    options := [phraseForm, pathForm,
      { name := "scheme", about := "Signature scheme"
        notes := "[default: sr25519] [possible values: sr25519, ed25519, ecdsa]"
        accepts := Read.accepts readScheme },
      { name := "prefix", about := "SS58 address prefix", notes := "[default: 42]"
        accepts := Read.accepts readFormat }] }

def signForm : CommandForm :=
  { name := "sign", about := "Decode and sign a request, printing signature response frames"
    operand := some payloadForm
    options := [phraseForm, pathForm, networkForm, metadataForm, inputForm] }

def forms : List CommandForm :=
  [decodeForm, encodeFramesForm, decodeFramesForm, deriveForm, signForm]

def globalForms : List OptionForm :=
  [{ name := "config", about := "Configuration file (TOML)", notes := "[env: AIRGAP_CONFIG=]"
     accepts := Read.accepts readFile },
    { name := "log-level", about := "Log level, overrides configuration"
      accepts := Read.accepts LogLevel.ofName? }]

/-! ### Commands -/

structure MetadataSelection where
  network : NetworkId
  files : List String
  deriving DecidableEq

inductive PayloadSource where
  | given (payload : Bytes)
  | file (path : String)
  deriving DecidableEq

structure KeySelection where
  phrase : String
  path : String
  deriving DecidableEq

inductive Command where
  | decode (metadata : MetadataSelection) (payload : PayloadSource) (output : Option String)
  | encodeFrames (payload : PayloadSource) (capacity : Option Nat)
  | decodeFrames (frames : List Bytes)
  | derive (key : KeySelection) (scheme : Scheme) (format : UInt16)
  | sign (key : KeySelection) (metadata : MetadataSelection) (payload : PayloadSource)
  deriving DecidableEq

/-- A command, and the file that configures it. -/
structure Invocation where
  config : Option String
  command : Command
  deriving DecidableEq

/-- What may stand in the environment in place of options. -/
structure Environment where
  config : Option String := none
  phrase : Option String := none

def orUsage {α : Type} : Option α → Except Refused α
  | some x => .ok x
  | none => .error .usage

namespace Words

/-- The value of an option that is there. -/
def get {α : Type} (w : Words) (name : String) (read : Read α) : Except Refused α :=
  orUsage ((w.value? name).bind read)

/-- The value of an option, if it is there. -/
def get? {α : Type} (w : Words) (name : String) (read : Read α) : Except Refused (Option α) :=
  match w.value? name with
  | none => .ok none
  | some s => (orUsage (read s)).map some

def getD {α : Type} (w : Words) (name : String) (read : Read α) (default : α) :
    Except Refused α := do
  return (← w.get? name read).getD default

def metadata (w : Words) : Except Refused MetadataSelection := do
  return ⟨← w.get networkForm.name readNetwork,
    ← orUsage ((w.values metadataForm.name).mapM readFile)⟩

/-- A payload is given either as an operand or as a file. -/
def payload (w : Words) : Except Refused PayloadSource := do
  match w.operands, ← w.get? inputForm.name readFile with
  | [s], none => return .given (← orUsage (readBytes s))
  | [], some path => return .file path
  | _, _ => .error .usage

def key (w : Words) : Except Refused KeySelection := do
  return ⟨← w.get phraseForm.name some, ← w.getD pathForm.name some ""⟩

end Words

def Command.ofWords (name : String) (w : Words) : Except Refused Command := do
  if name = decodeForm.name then
    return .decode (← w.metadata) (← w.payload) (← w.get? "output" readFile)
  else if name = encodeFramesForm.name then
    return .encodeFrames (← w.payload) (← w.get? "capacity" readCapacity)
  else if name = decodeFramesForm.name then
    return .decodeFrames (← orUsage (w.operands.mapM readBytes))
  else if name = deriveForm.name then
    return .derive (← w.key) (← w.getD "scheme" readScheme .sr25519)
      (← w.getD "prefix" readFormat 42)
  else return .sign (← w.key) (← w.metadata) (← w.payload)

/-- Words to which the phrase of the environment is added, where they have none. -/
def withPhrase (e : Environment) (f : CommandForm) (args : List String) : List String :=
  match e.phrase with
  | none => args
  | some p =>
    let isPhrase (s : String) := match Word.ofString s with
      | .long name _ => name = phraseForm.name
      | _ => false
    if f.options.any (·.name == phraseForm.name) && !args.any isPhrase then
      ("--" ++ phraseForm.name ++ "=" ++ p) :: args
    else args

/-- The word that asks for help. -/
def helpName : String := "help"

/-- What the command line asks for. -/
def Invocation.parse (e : Environment) (args : List String) : Except Refused Invocation := do
  let lead ← Lead.read globalForms {} none args
  match forms.find? (·.name == lead.name) with
  | some f =>
    let command ← Command.ofWords f.name (← f.read (withPhrase e f lead.rest))
    let w ← lead.allWords globalForms
    return ⟨(← w.get? "config" readFile).or e.config, command⟩
  | none =>
    if lead.name = helpName then
      match lead.rest with
      | [] => .error (.help none)
      | [topic] =>
        if topic = helpName || forms.any (·.name == topic) then .error (.help (some topic))
        else .error .usage
      | _ => .error .usage
    else .error .usage

end ColdSigner.CommandLine
