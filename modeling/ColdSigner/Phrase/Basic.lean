import ColdSigner.Hash.Sha256
import ColdSigner.Phrase.Words
import ColdSigner.Text.Blank
import ColdSigner.Text.Lowercase
import ColdSigner.Text.Styled

/-! Seed phrases.

A phrase writes entropy of 16 to 32 bytes, and after it the first bits of its hash,
in words of eleven bits each. -/
namespace ColdSigner

inductive PhraseError where
  | unknownWord
  | wordCount (count : Nat)
  | checksum
  deriving DecidableEq, Repr

def PhraseError.message : PhraseError → String
  | .unknownWord => "invalid word in phrase"
  | .wordCount n => "invalid number of words in phrase: " ++ toString n
  | .checksum => "invalid checksum"

namespace Phrase

/-- How many words a phrase may have. -/
def wordCounts : List Nat := [12, 15, 18, 21, 24]

/-- The entropy of a phrase, in bytes: every three words carry four of them. -/
def entropyLength (count : Nat) : Nat := count / 3 * 4

/-- The number of words for entropy of `length` bytes. -/
def wordCount (length : Nat) : Nat := length / 4 * 3

/-- The number of checksum bits: one for every three words. -/
def checksumLength (count : Nat) : Nat := count / 3

/-- The first bits of the hash of entropy. -/
def checksum (entropy : Bytes) : Nat :=
  let first := Bytes.toNat ((Sha256.hash entropy).take 1)
  first / Nat.pow 2 (8 - checksumLength (wordCount entropy.length))

/-- The lowest `n` digits of a number to the base `base`, the highest of them first. -/
def digits (base : Nat) : Nat → Nat → List Nat
  | 0, _ => []
  | n + 1, v => digits base n (v / base) ++ [v % base]

/-- The number of some digits, the highest first. -/
def ofDigits (base : Nat) (ds : List Nat) : Nat := ds.foldl (fun v d => v * base + d) 0

def word (index : Nat) : String := words.getD index ""

def index? (w : List Char) : Option Nat := words.idxOf? (String.ofList w)

/-- The words of entropy. -/
def ofEntropy (entropy : Bytes) : List String :=
  let count := wordCount entropy.length
  let v := entropy.toNatBE * Nat.pow 2 (checksumLength count) + checksum entropy
  (digits words.length count v).map word

/-- The entropy of words. Unknown words are noticed first, then a wrong number of
words, and last a wrong checksum. -/
def toEntropy (ws : List (List Char)) : Except PhraseError Bytes :=
  match ws.mapM index? with
  | none => .error .unknownWord
  | some indices =>
    let count := indices.length
    if count ∈ wordCounts then
      let v := ofDigits words.length indices
      let bits := Nat.pow 2 (checksumLength count)
      let entropy := Bytes.ofNatBE (entropyLength count) (v / bits)
      if checksum entropy = v % bits then .ok entropy else .error .checksum
    else .error (.wordCount count)

/-- The phrase of entropy, with one space between words. -/
def render (entropy : Bytes) : String := " ".intercalate (ofEntropy entropy)

/-- A phrase as `render` writes it, with one space between words. -/
def parseExact (s : List Char) : Except PhraseError Bytes := toEntropy (Text.splitOn (· == ' ') s)

/-- A phrase as a user may write it, with any blanks and with styled letters. -/
def parse (s : String) : Except PhraseError Bytes :=
  parseExact ([' '].intercalate ((Text.words s.toList).map Text.plain))

def maxGuesses : Nat := 8

/-- The first words that begin like `s`, whatever its case. -/
def guess (s : String) : List String :=
  let start := Text.lowercase (Text.trimChars s.toList)
  if start.isEmpty then [] else (words.filter fun w => start.isPrefixOf w.toList).take maxGuesses

end Phrase

end ColdSigner
