import ColdSigner.Table
import ColdSigner.Wire.Frame

/-! Frames put together again.

A collector takes frames as they are scanned, in any order and any number of
times. It keeps the first copy of each and refuses one that is at odds with those
it has. -/
namespace ColdSigner.Wire

structure Progress where
  received : Nat
  total : Nat
  deriving DecidableEq, Repr

def Progress.isComplete (p : Progress) : Bool := 0 < p.total && p.received == p.total

structure Collector where
  /-- A payload that came in one frame. -/
  single : Option Bytes := none
  /-- The number of frames that the headers announce. -/
  total : Option UInt16 := none
  /-- The chunks received, by index. -/
  chunks : Table UInt16 Bytes := {}

namespace Collector

instance : Inhabited Collector := ⟨{}⟩

def progress (c : Collector) : Progress :=
  match c.single, c.total with
  | some _, _ => ⟨1, 1⟩
  | none, some total => ⟨c.chunks.size, total.toNat⟩
  | none, none => ⟨0, 0⟩

def isComplete (c : Collector) : Bool := c.progress.isComplete

/-- A frame without header. -/
def pushSingle (c : Collector) (frame : Bytes) : Except Error Collector :=
  if c.total.isSome then .error .invalidFrame
  else
    match c.single with
    | none => .ok { c with single := some frame }
    | some s => if s = frame then .ok c else .error .invalidFrame

/-- A chunk with its header. -/
def pushChunk (c : Collector) (h : FrameHeader) (chunk : Bytes) : Except Error Collector :=
  if h.count = 0 ∨ h.count.toNat ≤ h.index.toNat then .error .invalidFrame
  else if c.total.any (· ≠ h.count) then .error .invalidFrame
  else
    let chunks := if (c.chunks.find? h.index).isSome then c.chunks
      else c.chunks.insert h.index chunk
    .ok { c with total := some h.count, chunks }

def push (c : Collector) (frame : Bytes) : Except Error Collector :=
  match frame with
  | [] => .error .invalidFrame
  | first :: _ =>
    if first ≠ FrameHeader.multipart then c.pushSingle frame
    else if c.single.isSome then .error .invalidFrame
    else
      match FrameHeader.decode frame with
      | .error _ => .error .invalidFrame
      | .ok (h, chunk) => c.pushChunk h chunk

/-- The payload before a checksum that fits it. -/
def checked (data : Bytes) : Except Error Bytes :=
  if data.length < Checksum.length then .error .checksumMismatch
  else
    let payload := data.take (data.length - Checksum.length)
    if data.drop (data.length - Checksum.length) = Checksum.encode payload then .ok payload
    else .error .checksumMismatch

/-- The payload, once every frame is there. -/
def finish (c : Collector) : Except Error Bytes :=
  match c.single, c.total with
  | some s, _ => .ok s
  | none, none => .error .incompleteSequence
  | none, some total =>
    if c.chunks.size ≠ total.toNat then .error .incompleteSequence
    else checked c.chunks.values.flatten

end Collector

/-- The payload of a complete set of frames, in any order. -/
def Frame.decode (frames : List Bytes) : Except Error Bytes := do
  let c ← frames.foldlM Collector.push {}
  c.finish

end ColdSigner.Wire
