import ColdSigner.CommandLine.Run

/-! The program: it reads files and the environment, and prints. -/
namespace ColdSigner.CommandLine

/-- The fault that the file system reports. -/
def FileFault.ofError : IO.Error → FileFault
  | .noFileOrDirectory .. => .missing
  | .inappropriateType _ code _ => if code = 20 then .notDirectory else .isDirectory
  | e => .other (toString e)

/-- The files that a command may read. -/
def Invocation.files (i : Invocation) : List String :=
  let payload : PayloadSource → List String
    | .file path => [path]
    | .given _ => []
  i.config.toList ++ match i.command with
    | .decode m p _ | .sign _ m p => m.files ++ payload p
    | .encodeFrames p _ => payload p
    | .decodeFrames _ | .derive .. => []

def loadFile (path : String) : IO (Except FileFault Bytes) := do
  try return .ok (← IO.FS.readBinFile path).data.toList
  catch e => return .error (.ofError e)

/-- What the given files hold. -/
def loadFiles (paths : List String) : IO Files := do
  let held ← paths.mapM fun path => return (path, ← loadFile path)
  return { read := fun path => ((held.find? (·.1 == path)).map (·.2)).getD (.error .missing) }

/-- Shows an outcome, and gives the code to exit with. -/
def Outcome.finish (outcome : Outcome) : IO UInt32 := do
  match outcome with
  | .done output =>
    for line in output.lines do IO.println line
    if let some (path, text) := output.file then
      try IO.FS.writeFile path text
      catch e =>
        IO.eprint (Failure.file (.ofError e)).report
        return 1
  | .failed f => IO.eprint f.report
  | .stopped => IO.eprintln Wire.Error.overflow.message
  | .misused => for line in generalHelp do IO.eprintln line
  return UInt32.ofNat outcome.code

end ColdSigner.CommandLine

open ColdSigner.CommandLine in
def main (args : List String) : IO UInt32 := do
  let e : Environment := ⟨← IO.getEnv "AIRGAP_CONFIG", ← IO.getEnv "AIRGAP_PHRASE"⟩
  let files ← match Invocation.parse e args with
    | .ok i => loadFiles i.files
    | .error _ => loadFiles []
  (run files e args).finish
