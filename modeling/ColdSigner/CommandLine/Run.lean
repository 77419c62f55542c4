import ColdSigner.CommandLine.Failure
import ColdSigner.CommandLine.Help
import ColdSigner.Key.Signing
import ColdSigner.Text.Json
import ColdSigner.Wire.Response

/-! What the commands do.

A command is a function of the files it reads, and answers with the lines it prints
and the file it writes. -/
namespace ColdSigner.CommandLine

/-- The files of a directory, as far as a command may look. -/
structure Files where
  read : String → Except FileFault Bytes
  /-- Why a file cannot be written, if so. -/
  writeFault : String → Option FileFault := fun _ => none

/-- What a command prints and writes. -/
structure Output where
  lines : List String := []
  file : Option (String × String) := none
  deriving DecidableEq, Repr

/-! ### Files -/

/-- What follows the last period in the name of a file, unless the name starts there. -/
def extension? (path : String) : Option String :=
  let parts := (Text.splitOn (· == '/') path.toList).filter fun p => p ≠ [] ∧ p ≠ ['.']
  match parts.getLast? with
  | none => none
  | some name =>
    if name = ['.', '.'] then none
    else
      let reversed := name.reverse
      match reversed.dropWhile (· != '.') with
      | _ :: _ :: _ => some (String.ofList (reversed.takeWhile (· != '.')).reverse)
      | _ => none

/-- The bytes that a file holds, or spells if its name tells that. -/
def readInput (files : Files) (path : String) : Except Failure Bytes := do
  let b ← (files.read path).mapError .file
  if extension? path = some "hex" then
    match b.toText? with
    | some s => (Hex.decode (String.ofList (dropHexMark (Text.trimChars s.toList)))).mapError .hex
    | none => .error (.text ((Utf8.fault? b).getD ⟨0, none⟩))
  else return b

def PayloadSource.load (files : Files) : PayloadSource → Except Failure Bytes
  | .given payload => .ok payload
  | .file path => readInput files path

def notText : FileFault := .other "stream did not contain valid UTF-8"

def readConfig (files : Files) : Option String → Except Failure Config
  | none => .ok {}
  | some path => do
    let b ← (files.read path).mapError .configFile
    match b.toText? with
    | none => .error (.configFile notText)
    | some s => (Config.parse s).mapError (.config · s)

/-- The registry of some metadata files. -/
def MetadataSelection.load (files : Files) (m : MetadataSelection) : Except Failure Registry :=
  m.files.foldlM (fun r path => do
    let blob ← readInput files path
    return (← (r.load m.network blob).mapError .registry).2) {}

/-! ### Reports -/

mutual

def cardReport : Card → Text.Json
  | ⟨kind, value, indent, span, children⟩ =>
    .object [("kind", .text kind.name), ("value", .text value), ("indent", .number indent),
      ("start", .number span.start), ("end", .number span.stop),
      ("children", .array (cardReports [] children))]

def cardReports (acc : List Text.Json) : List Card → List Text.Json
  | [] => acc.reverse
  | c :: rest => cardReports (cardReport c :: acc) rest

end

def reviewReport (r : Review) : Text.Json :=
  let cards := ("cards", Text.Json.array (cardReports [] r.cards))
  match r.request with
  | .sign s => .object [("kind", .text "sign"), ("signer", .text s.signer.text),
      ("sign_kind", .text s.kind.name), cards]
  | .loadMetadata _ => .object [("kind", .text "load_metadata"), cards]

def keyReport (k : PublicKey) (format : UInt16) : Text.Json :=
  .object [("scheme", .text k.scheme.name), ("public", .text (Hex.encode k.bytes)),
    ("address", .text (k.address format))]

/-! ### Commands -/

def KeySelection.derive (k : KeySelection) (scheme : Scheme) : Except Failure SecretKey := do
  let entropy ← (Phrase.parse k.phrase).mapError .phrase
  let path ← (DerivationPath.parse k.path).mapError .key
  (SecretKey.derive entropy path scheme).mapError .key

def review (files : Files) (limits : Review.Limits) (m : MetadataSelection) (p : PayloadSource) :
    Except Failure Review := do
  let registry ← m.load files
  let payload ← p.load files
  (Review.decodeRequest payload registry.source limits).mapError .decode

/-- The frames of an answer to a request, signed with a key. -/
def signReview (r : Review) (key : KeySelection) (capacity : Nat) :
    Except Failure (List Bytes) := do
  match r.request with
  | .loadMetadata _ => .error .updateNotSigned
  | .sign s =>
    let k ← key.derive s.signer.scheme
    if k.publicKey ≠ s.signer then .error (.otherSigner s.signer k.publicKey)
    else
      let signature := k.sign s.payload
      let answer := Wire.Response.encode ⟨signature.scheme, signature.bytes⟩
      (Wire.Frame.encode answer capacity).mapError .wire

/-- A report where it is wanted. -/
def writeReport (files : Files) (output : Option String) (report : Text.Json) :
    Except Failure Output :=
  match output with
  | none => .ok { lines := [report.render] }
  | some path =>
    if extension? path = some "json" then
      match files.writeFault path with
      | some f => .error (.file f)
      | none => .ok { file := some (path, report.render) }
    else .error .outputFormat

def frameLines (frames : List Bytes) : Output := { lines := frames.map Hex.encode }

def Command.run (files : Files) (c : Config) : Command → Except Failure Output
  | .decode metadata payload output => do
    let r ← review files c.session.limits metadata payload
    writeReport files output (reviewReport r)
  | .encodeFrames payload capacity => do
    let b ← payload.load files
    let frames ← (Wire.Frame.encode b (capacity.getD c.session.frameCapacity)).mapError .wire
    return frameLines frames
  | .decodeFrames frames => do
    return frameLines [← (Wire.Frame.decode frames).mapError .wire]
  | .derive key scheme format => do
    let k ← key.derive scheme
    writeReport files none (keyReport k.publicKey format)
  | .sign key metadata payload => do
    let r ← review files c.session.limits metadata payload
    return frameLines (← signReview r key c.session.frameCapacity)

def Invocation.run (files : Files) (i : Invocation) : Except Failure Output := do
  i.command.run files (← readConfig files i.config)

/-- How the program ends. -/
inductive Outcome where
  /-- Everything was done. -/
  | done (output : Output)
  | failed (failure : Failure)
  /-- A sum was no word. -/
  | stopped
  /-- The command line is not well formed. -/
  | misused

def Outcome.code : Outcome → Nat
  | .done _ => 0
  | .failed _ => 1
  | .stopped => 101
  | .misused => 2

/-- A run of the program. -/
def run (files : Files) (e : Environment) (args : List String) : Outcome :=
  match Invocation.parse e args with
  | .error .usage => .misused
  | .error (.help topic) => .done { lines := helpLines topic }
  | .ok i =>
    match i.run files with
    | .ok output => .done output
    | .error (.wire .overflow) => .stopped
    | .error f => .failed f

end ColdSigner.CommandLine
