import ColdSigner.Bytes.Utf8
import ColdSigner.Config
import ColdSigner.Phrase.Basic

/-! Why a command fails. -/
namespace ColdSigner.CommandLine

/-- Why a file cannot be read or written. -/
inductive FileFault where
  | missing
  | isDirectory
  /-- The path leads through a file. -/
  | notDirectory
  | other (text : String)
  deriving DecidableEq, Repr

def FileFault.message : FileFault → String
  | .missing => "No such file or directory (os error 2)"
  | .isDirectory => "Is a directory (os error 21)"
  | .notDirectory => "Not a directory (os error 20)"
  | .other text => text

/-- The text of a fault in hexadecimal text; a byte is shown as the character it numbers. -/
def hexMessage : Hex.Fault → String
  | .oddLength => "Odd number of digits"
  | .notDigit b position =>
    "Invalid character " ++ Text.quoteChar (Char.ofNat b.toNat)
      ++ " at position " ++ toString position

inductive Failure where
  | file (fault : FileFault)
  /-- A file with hexadecimal digits that is not text. -/
  | text (fault : Utf8.Fault)
  | hex (fault : Hex.Fault)
  | configFile (fault : FileFault)
  | config (fault : Toml.Fault) (source : String)
  | registry (error : RegistryError)
  | decode (failure : DecodeFailure)
  | wire (error : Wire.Error)
  | phrase (error : PhraseError)
  | key (error : KeyError)
  | updateNotSigned
  | otherSigner (requested derived : PublicKey)
  | outputFormat

namespace Failure

def message : Failure → String
  | .file f => f.message
  | .text f => f.message
  | .hex f => hexMessage f
  | .configFile f => "IO error: " ++ f.message
  | .config f source => "Invalid configuration: " ++ f.message source
  | .registry e => e.message
  | .decode f => "decode failed: " ++ f.message
  | .wire e => e.message
  | .phrase e => e.message
  | .key e => e.message
  | .updateNotSigned => "metadata updates are not signed"
  | .otherSigner requested derived =>
    "request signer " ++ requested.text ++ " does not match derived key " ++ derived.text
  | .outputFormat => "unsupported output file format"

/-- The failure behind this one. -/
def cause? : Failure → Option String
  | .configFile f => some f.message
  | .config f source => some (f.message source)
  | _ => none

/-- What the user is told. -/
def report (f : Failure) : String :=
  "Error: " ++ f.message ++ "\n"
    ++ match f.cause? with
      | some c => "\nCaused by:\n    " ++ c ++ "\n"
      | none => ""

end Failure

end ColdSigner.CommandLine
