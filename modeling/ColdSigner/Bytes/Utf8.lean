import ColdSigner.Bytes

/-! Where a byte string stops being UTF-8. -/
namespace ColdSigner.Utf8

structure Fault where
  /-- The number of bytes before the fault. -/
  validUpTo : Nat
  /-- The number of bytes that cannot begin a character, unless the string ends too soon. -/
  length? : Option Nat
  deriving DecidableEq, Repr

def Fault.message (f : Fault) : String :=
  match f.length? with
  | some n =>
    "invalid utf-8 sequence of " ++ toString n ++ " bytes from index " ++ toString f.validUpTo
  | none => "incomplete utf-8 byte sequence from index " ++ toString f.validUpTo

/-- The ranges of the bytes that may follow a first byte; none if it stands for itself. -/
def followers? (first : UInt8) : Option (List (UInt8 × UInt8)) :=
  let any : UInt8 × UInt8 := (0x80, 0xBF)
  if first < 0x80 then some []
  else if 0xC2 ≤ first ∧ first ≤ 0xDF then some [any]
  else if first = 0xE0 then some [(0xA0, 0xBF), any]
  else if first = 0xED then some [(0x80, 0x9F), any]
  else if 0xE1 ≤ first ∧ first ≤ 0xEF then some [any, any]
  else if first = 0xF0 then some [(0x90, 0xBF), any, any]
  else if 0xF1 ≤ first ∧ first ≤ 0xF3 then some [any, any, any]
  else if first = 0xF4 then some [(0x80, 0x8F), any, any]
  else none

/-- How many bytes follow as they should: all of them, or the number before the first that
does not, and whether that one is there at all. -/
def follow (count : Nat) : List (UInt8 × UInt8) → Bytes → Nat × Option Bool
  | [], _ => (count, none)
  | _ :: _, [] => (count, some false)
  | r :: ranges, b :: rest =>
    if r.1 ≤ b ∧ b ≤ r.2 then follow (count + 1) ranges rest else (count, some true)

/-- The first fault from `position` on. The number is at least that of the bytes left. -/
def faultFrom (position : Nat) : Nat → Bytes → Option Fault
  | 0, _ | _, [] => none
  | n + 1, first :: rest =>
    match followers? first with
    | none => some ⟨position, some 1⟩
    | some ranges =>
      match follow 0 ranges rest with
      | (count, none) => faultFrom (position + 1 + count) n (rest.drop count)
      | (_, some false) => some ⟨position, none⟩
      | (count, some true) => some ⟨position, some (1 + count)⟩

def fault? (b : Bytes) : Option Fault := faultFrom 0 b.length b

end ColdSigner.Utf8
