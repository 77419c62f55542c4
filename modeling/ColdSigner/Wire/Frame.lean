import ColdSigner.Wire.Checksum
import ColdSigner.Wire.Compact

/-! Payloads as frames.

A payload that fits into one frame, and does not start with the marker byte, is
its own frame. Any other payload is followed by its checksum and cut into chunks;
a frame is a header — the marker, the index of the chunk and the number of chunks,
two bytes each — and one chunk. -/
namespace ColdSigner.Wire

/-- The binary capacity of the largest code at the lowest level of correction. -/
def defaultCapacity : Nat := 2953

structure FrameHeader where
  marker : UInt8
  index : UInt16
  count : UInt16
  deriving DecidableEq, Repr

namespace FrameHeader

/-- The first byte of every frame that has a header. -/
def multipart : UInt8 := 0x00

def length : Nat := 5

def encode (h : FrameHeader) : Bytes :=
  h.marker :: (Bytes.ofNat 2 h.index.toNat ++ Bytes.ofNat 2 h.count.toNat)

def decode (b : Bytes) : Except Error (FrameHeader × Bytes) := do
  let (marker, b) ← Compact.split 1 b
  let (index, b) ← Compact.split 2 b
  let (count, b) ← Compact.split 2 b
  return (⟨UInt8.ofNat marker.toNat, UInt16.ofNat index.toNat, UInt16.ofNat count.toNat⟩, b)

end FrameHeader

namespace Frame

/-- Cuts a list into runs of `n`; the last may be shorter. -/
def chunks {α : Type} (n : Nat) (xs : List α) : List (List α) :=
  if n = 0 then [] else go [] xs
where
  go (acc : List (List α)) (xs : List α) : List (List α) :=
    if _h : n = 0 ∨ xs = [] then acc.reverse
    else go (xs.take n :: acc) (xs.drop n)
  termination_by xs.length
  decreasing_by
    have hx : xs.length ≠ 0 := fun hl => _h (.inr (List.length_eq_zero_iff.1 hl))
    simp only [List.length_drop]
    omega

/-- Lengths are counted in 64-bit words. -/
def wordSize : Nat := UInt64.size

/-- The sum of two lengths, if it is a word. -/
def addLengths (a b : Nat) : Except Error Nat :=
  if a + b < wordSize then .ok (a + b) else .error .overflow

/-- How many chunks of `chunk` bytes hold `length` bytes. -/
def chunkCount (length chunk : Nat) : Except Error Nat := do
  let sum ← addLengths length chunk
  return (sum - 1) / chunk

/-- Whether a payload is its own frame. -/
def isSingle (capacity : Nat) (payload : Bytes) : Bool :=
  match payload with
  | [] => false
  | first :: _ => payload.length ≤ capacity && first != FrameHeader.multipart

/-- The frames of a payload, of at most `capacity` bytes each. -/
def encode (payload : Bytes) (capacity : Nat) : Except Error (List Bytes) :=
  if capacity ≤ FrameHeader.length then .error .invalidCapacity
  else if isSingle capacity payload then .ok [payload]
  else do
    let data := payload ++ Checksum.encode payload
    let chunk := capacity - FrameHeader.length
    let count ← chunkCount data.length chunk
    if count < UInt16.size then
      return (chunks chunk data).mapIdx fun i c =>
        FrameHeader.encode ⟨FrameHeader.multipart, UInt16.ofNat i, UInt16.ofNat count⟩ ++ c
    else .error .payloadTooLarge

end Frame

end ColdSigner.Wire
