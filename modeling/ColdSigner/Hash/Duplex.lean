import ColdSigner.Bytes
import ColdSigner.Hash.Keccak

/-! A duplex that absorbs and squeezes bytes in framed operations.

Each operation absorbs where the one before it began and its own flags. Where it
makes output or overwrites the state, the state is permuted first. -/
namespace ColdSigner

structure Duplex where
  state : Array UInt8
  position : Nat
  /-- One past the position at which the current operation began, or zero. -/
  opened : Nat

namespace Duplex

/-- The bytes that go in or out between two permutations. -/
def rate : Nat := 166

def flagInput : UInt8 := 1
def flagApplication : UInt8 := 2
def flagCipher : UInt8 := 4
def flagMeta : UInt8 := 16

def xorAt (s : Array UInt8) (i : Nat) (b : UInt8) : Array UInt8 := s.modify i (· ^^^ b)

/-- Closes the block and permutes the state. -/
def permute (d : Duplex) : Duplex :=
  let s := xorAt d.state d.position (UInt8.ofNat d.opened)
  let s := xorAt s (d.position + 1) 0x04
  let s := xorAt s (rate + 1) 0x80
  ⟨Keccak.permute s, 0, 0⟩

/-- One byte on, permuting at the end of a block. -/
def advance (d : Duplex) (state : Array UInt8) : Duplex :=
  let d := { d with state, position := d.position + 1 }
  if d.position = rate then d.permute else d

def absorb (d : Duplex) (b : Bytes) : Duplex :=
  b.foldl (fun d x => d.advance (xorAt d.state d.position x)) d

def overwrite (d : Duplex) (b : Bytes) : Duplex :=
  b.foldl (fun d x => d.advance (d.state.modify d.position fun _ => x)) d

/-- Takes `n` bytes out, leaving zeros in their place. -/
def squeeze : Nat → Duplex → Bytes → Bytes × Duplex
  | 0, d, acc => (acc.reverse, d)
  | n + 1, d, acc =>
    let x := d.state.getD d.position 0
    squeeze n (d.advance (d.state.modify d.position fun _ => 0)) (x :: acc)

/-- Begins an operation. -/
def start (d : Duplex) (flags : UInt8) : Duplex :=
  let before := UInt8.ofNat d.opened
  let d := { d with opened := d.position + 1 }.absorb [before, flags]
  if flags &&& flagCipher ≠ 0 ∧ d.position ≠ 0 then d.permute else d

/-- Absorbs a label, which may be given in parts. -/
def label (d : Duplex) (parts : List Bytes) : Duplex :=
  (d.start (flagMeta ||| flagApplication)).absorb parts.flatten

def data (d : Duplex) (b : Bytes) : Duplex := (d.start flagApplication).absorb b

def key (d : Duplex) (b : Bytes) : Duplex := (d.start (flagApplication ||| flagCipher)).overwrite b

def output (d : Duplex) (n : Nat) : Bytes × Duplex :=
  squeeze n (d.start (flagInput ||| flagApplication ||| flagCipher)) []

/-- A fresh duplex for a protocol. -/
def init (protocol : String) : Duplex :=
  let head : Bytes := [1, UInt8.ofNat (rate + 2), 1, 0, 1, 96] ++ Bytes.ofText "STROBEv1.0.2"
  let state := (FixedBytes.fit 200 head).bytes.toArray
  label ⟨Keccak.permute state, 0, 0⟩ [Bytes.ofText protocol]

end Duplex

end ColdSigner
