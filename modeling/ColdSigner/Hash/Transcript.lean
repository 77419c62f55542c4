import ColdSigner.Hash.Duplex

/-! Transcripts of a protocol.

A transcript absorbs labelled messages and answers with bytes that depend on all
of them. -/
namespace ColdSigner

structure Transcript where
  duplex : Duplex

namespace Transcript

/-- A label followed by the length of what it announces. -/
def heading (label : String) (length : Nat) : List Bytes :=
  [Bytes.ofText label, Bytes.ofNat 4 length]

def append (t : Transcript) (label : String) (message : Bytes) : Transcript :=
  ⟨(t.duplex.label (heading label message.length)).data message⟩

/-- `n` bytes that depend on the transcript, and the transcript after them. -/
def challenge (t : Transcript) (label : String) (n : Nat) : Bytes × Transcript :=
  let (out, d) := (t.duplex.label (heading label n)).output n
  (out, ⟨d⟩)

/-- `n` bytes that depend on the transcript, a secret and outside randomness; the
transcript stays as it is. -/
def witness (t : Transcript) (label : String) (secret random : Bytes) (n : Nat) : Bytes :=
  let d := (t.duplex.label (heading label secret.length)).key secret
  let d := (d.label [Bytes.ofText "rng"]).key random
  ((d.label [Bytes.ofNat 4 n]).output n).1

def new (label : String) : Transcript :=
  append ⟨Duplex.init "Merlin v1.0"⟩ "dom-sep" (Bytes.ofText label)

end Transcript

end ColdSigner
