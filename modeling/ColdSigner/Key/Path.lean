import ColdSigner.Hash.Blake2b
import ColdSigner.Text.Blank
import ColdSigner.Text.Numeral
import ColdSigner.Wire.Compact

/-! Derivation paths.

A path is a row of segments, each a code without slash after one slash for a soft
junction or two for a hard one; after three slashes a password without line break
may follow. -/
namespace ColdSigner

/-- One step of a derivation, with its chain code. -/
inductive Junction where
  | soft (code : FixedBytes 32)
  | hard (code : FixedBytes 32)
  deriving DecidableEq

namespace Junction

/-- A numeral as a 64-bit number, any other code as a text after its length; what
is longer than a chain code is hashed. -/
def chainCode (code : List Char) : FixedBytes 32 :=
  let encoded := match Text.numeral? Text.max64 code with
    | some n => Bytes.ofNat 8 n
    | none =>
      let text := Bytes.ofText (String.ofList code)
      Wire.Compact.encode text.length ++ text
  if 32 < encoded.length then Blake2b.hash 32 encoded else .fit 32 encoded

/-- The junction of a code, hard where a slash leads it. -/
def ofChars : List Char → Junction
  | '/' :: code => .hard (chainCode code)
  | code => .soft (chainCode code)

def code : Junction → FixedBytes 32
  | .soft c | .hard c => c

def isHard : Junction → Bool
  | .soft _ => false
  | .hard _ => true

end Junction

/-- A segment of a path as it is written. -/
structure Segment where
  isHard : Bool
  code : List Char
  deriving DecidableEq, Repr

namespace Segment

def chars (s : Segment) : List Char :=
  if s.isHard then '/' :: '/' :: s.code else '/' :: s.code

def junction (s : Segment) : Junction :=
  if s.isHard then .hard (Junction.chainCode s.code) else .soft (Junction.chainCode s.code)

end Segment

structure DerivationPath where
  segments : List Segment
  password : Option String
  deriving DecidableEq

namespace DerivationPath

/-- The path as it is written, without the password. -/
def chars (p : DerivationPath) : List Char := p.segments.flatMap Segment.chars

def path (p : DerivationPath) : String := String.ofList p.chars

def junctions (p : DerivationPath) : List Junction := p.segments.map Segment.junction

def hasPassword (p : DerivationPath) : Bool := p.password.isSome

/-- The same path with a password, in place of its own. -/
def withPassword (p : DerivationPath) : Option String → DerivationPath
  | some w => { p with password := some w }
  | none => p

/-- The code up to the next slash, which must not be empty, and what follows it. -/
def readCode (isHard : Bool) (s : List Char) : Option (Segment × List Char) :=
  let code := s.takeWhile (· != '/')
  if code.isEmpty then none else some (⟨isHard, code⟩, s.dropWhile (· != '/'))

/-- The segment at the front. -/
def readSegment : List Char → Option (Segment × List Char)
  | '/' :: '/' :: rest => readCode true rest
  | '/' :: rest => readCode false rest
  | _ => none

/-- What may follow the segments: nothing, or a password. -/
def readPassword : List Char → Option (Option String)
  | [] => some none
  | '/' :: '/' :: '/' :: password =>
    if password.isEmpty || password.contains '\n' then none
    else some (some (String.ofList password))
  | _ => none

theorem length_readCode {isHard : Bool} {s : List Char} {segment : Segment} {rest : List Char}
    (h : readCode isHard s = some (segment, rest)) : rest.length < s.length := by
  simp only [readCode] at h
  split at h
  · simp at h
  · next hc =>
    obtain ⟨-, rfl⟩ := Prod.mk.inj (Option.some.inj h)
    have hs := congrArg List.length (List.takeWhile_append_dropWhile (p := (· != '/')) (l := s))
    rw [List.length_append] at hs
    have : (s.takeWhile (· != '/')).length ≠ 0 := by simpa using hc
    omega

theorem length_readSegment {s : List Char} {segment : Segment} {rest : List Char}
    (h : readSegment s = some (segment, rest)) : rest.length < s.length := by
  unfold readSegment at h
  split at h
  · have := length_readCode h
    simp only [List.length_cons]
    omega
  · have := length_readCode h
    simp only [List.length_cons]
    omega
  · simp at h

/-- Segments as long as there are any, then the password. -/
def parseFrom (done : List Segment) (s : List Char) : Option DerivationPath :=
  match _h : readSegment s with
  | some (segment, rest) => parseFrom (segment :: done) rest
  | none => (readPassword s).map (⟨done.reverse, ·⟩)
termination_by s.length
decreasing_by exact length_readSegment _h

def parse? (s : String) : Option DerivationPath := parseFrom [] s.toList

end DerivationPath

end ColdSigner
