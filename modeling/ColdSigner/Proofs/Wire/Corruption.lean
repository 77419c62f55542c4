import ColdSigner.Proofs.Wire.AnyOrder
import ColdSigner.Proofs.Wire.Conflicts

/-! Frames that were altered.

The frames of a payload carry one stream between them, the payload with its checksum.
A change of up to four bytes next to each other in this stream is always found out,
wherever it stands: in the payload, in the checksum or across the two, in one frame or
across several. -/
namespace ColdSigner.Wire

/-! ### The stream -/

namespace Collector

theorem checked_of_register_ne {data : Bytes} (h : Checksum.register data ≠ Checksum.residue) :
    checked data = .error .checksumMismatch := by
  unfold checked
  split
  · rfl
  · next hlength =>
    have htail : (data.drop (data.length - Checksum.length)).length = Checksum.length := by
      rw [List.length_drop]
      omega
    refine if_neg fun heq => ?_
    have hresidue := (Checksum.eq_encode_iff htail).1 heq
    rw [List.take_append_drop] at hresidue
    exact h hresidue

/-- A payload with its checksum is no longer accepted when up to four bytes of it are others. -/
theorem checked_altered {payload front old new back : Bytes}
    (h : payload ++ Checksum.encode payload = front ++ old ++ back)
    (hlength : old.length = new.length) (hfour : old.length ≤ 4) (hne : old ≠ new) :
    checked (front ++ new ++ back) = .error .checksumMismatch := by
  have hresidue : Checksum.register (front ++ old ++ back) = Checksum.residue :=
    h ▸ (Checksum.eq_encode_iff (Checksum.length_encode payload)).1 rfl
  refine checked_of_register_ne fun heq => ?_
  exact Checksum.foldl_feed_ne hlength hfour hne _ (hresidue.trans heq.symm)

end Collector

namespace Frame

/-- What frames carry behind their headers. -/
def stream (frames : List Bytes) : Bytes := (frames.map body).flatten

/-- Up to four bytes next to each other in the stream are others, and the headers are the same. -/
structure Altered (frames altered : List Bytes) : Prop where
  headers : altered.map header = frames.map header
  within : ∃ front old new back : Bytes, stream frames = front ++ old ++ back ∧
    stream altered = front ++ new ++ back ∧ old.length = new.length ∧ old.length ≤ 4 ∧ old ≠ new

/-- One byte behind the header of one frame is another. -/
theorem Altered.byte {before after : List Bytes} {head tail : Bytes} {x y : UInt8}
    (hhead : FrameHeader.length ≤ head.length) (hne : x ≠ y) :
    Altered (before ++ (head ++ x :: tail) :: after) (before ++ (head ++ y :: tail) :: after) where
  headers := by simp [header, List.take_append_of_le_length hhead]
  within := by
    refine ⟨stream before ++ body head, [x], [y], tail ++ stream after, ?_, ?_, rfl,
      Nat.le_add_left 1 3, by simpa using hne⟩ <;>
      simp [stream, body, List.drop_append_of_le_length hhead]

/-! ### The frames -/

variable {payload : Bytes} {capacity : Nat} {frames : List Bytes}

/-- A payload with well-formed frames was cut into as many chunks as their headers say. -/
theorem exists_pieces (h : encode payload capacity = .ok frames)
    (hparts : ∀ f ∈ frames, ∃ index count chunk, IsPart index count chunk f) :
    ∃ (count : UInt16) (cs : List Bytes), cs ≠ [] ∧ cs.length = count.toNat ∧
      cs.flatten = payload ++ Checksum.encode payload ∧ frames = cs.mapIdx (piece count) := by
  obtain ⟨hcapacity, ⟨rfl, -, first, rest, rfl, hfirst⟩ | ⟨count, hcount, rfl⟩⟩ := encode_eq_ok h
  · obtain ⟨index, count, chunk, hpart, -⟩ := hparts _ (List.mem_singleton_self _)
    exact absurd (List.cons.inj hpart).1 hfirst
  · exact ⟨count, _, cut_ne_nil hcapacity, hcount, flatten_cut hcapacity, rfl⟩

/-- All frames, in any order and any number of times, give what the chunks hold. -/
theorem decode_all {count : UInt16} {cs seq : List Bytes} (hne : cs ≠ [])
    (h : cs.length = count.toNat) (hseq : ∀ f, f ∈ seq ↔ f ∈ cs.mapIdx (piece count)) :
    decode seq = Collector.checked cs.flatten := by
  obtain ⟨is, his, rfl⟩ := exists_indices fun f hf => (hseq f).1 hf
  have hall := (all_frames_iff h his).1 fun f hf => (hseq f).2 hf
  have hfold := Collector.foldlM_push_holding h [] is his
  rw [List.nil_append, Collector.holding_nil, Collector.holding_eq_gathered hne h hall] at hfold
  rw [decode, hfold]
  exact Collector.finish_gathered hne h

theorem stream_pieces (count : UInt16) (cs : List Bytes) : stream (cs.mapIdx (piece count)) = cs.flatten := by
  refine congrArg List.flatten (List.ext_getElem (by simp) fun i _ _ => ?_)
  simp [piece, body_append]

/-- Frames that have the headers of pieces are pieces. -/
theorem eq_pieces {count : UInt16} {cs altered : List Bytes}
    (h : altered.map header = (cs.mapIdx (piece count)).map header) :
    altered = (altered.map body).mapIdx (piece count) := by
  refine List.ext_getElem (by simp) fun i hi _ => ?_
  have hlength : altered.length = cs.length := by simpa using congrArg List.length h
  have hheader : header altered[i] = header (piece count i cs[i]) := by
    have := List.getElem_of_eq h (by simpa using hi)
    simpa using this
  rw [piece, header_append] at hheader
  rw [List.getElem_mapIdx, List.getElem_map, piece, ← hheader]
  exact (List.take_append_drop ..).symm

/-- A payload is cut into well-formed frames. However these are altered within four bytes of
their stream, so if one byte behind a header is another, and in whatever order all of them are
scanned, the checksum does not match. -/
theorem altered_refused (h : encode payload capacity = .ok frames)
    (hparts : ∀ f ∈ frames, ∃ index count chunk, IsPart index count chunk f) :
    (∀ altered seq, Altered frames altered → (∀ f, f ∈ seq ↔ f ∈ altered) →
        decode seq = .error .checksumMismatch) ∧
      ∀ (before after : List Bytes) (head tail : Bytes) (x y : UInt8) (seq : List Bytes),
        frames = before ++ (head ++ x :: tail) :: after → FrameHeader.length ≤ head.length → x ≠ y →
          (∀ f, f ∈ seq ↔ f ∈ before ++ (head ++ y :: tail) :: after) →
            decode seq = .error .checksumMismatch := by
  have hrefused (altered seq : List Bytes) (haltered : Altered frames altered)
      (hseq : ∀ f, f ∈ seq ↔ f ∈ altered) : decode seq = .error .checksumMismatch := by
    obtain ⟨count, cs, hne, hlength, hdata, hframes⟩ := exists_pieces h hparts
    obtain ⟨hheaders, front, old, new, back, hold, hnew, hsame, hfour, hdiffer⟩ := haltered
    subst hframes
    have hcount : (altered.map body).length = cs.length := by
      simpa using congrArg List.length hheaders
    have hbodies : altered.map body ≠ [] := by
      rw [← List.length_pos_iff, hcount]
      exact List.length_pos_iff.2 hne
    rw [eq_pieces hheaders] at hseq
    rw [stream_pieces, hdata] at hold
    rw [decode_all hbodies (hcount.trans hlength) hseq, ← stream, hnew]
    exact Collector.checked_altered hold hsame hfour hdiffer
  refine ⟨hrefused, fun before after head tail x y seq hframes hhead hne hseq => ?_⟩
  exact hrefused _ seq (hframes ▸ Altered.byte hhead hne) hseq

/-- Three frames of a payload. First its last byte and two bytes of the checksum are others, in two
frames, and the frames are scanned backwards and once more; then only the last byte of all is
another. -/
theorem sample_altered_refused : ∃ frames, encode [0, 1, 2, 3, 4] 9 = .ok frames ∧
    frames = [[0, 0, 0, 3, 0, 0, 1, 2, 3], [0, 1, 0, 3, 0, 4, 204, 211, 90], [0, 2, 0, 3, 0, 81]] ∧
      decode ([[0, 2, 0, 3, 0, 81], [0, 1, 0, 3, 0, 5, 204, 0, 90], [0, 0, 0, 3, 0, 0, 1, 2, 7]] ++
        [[0, 0, 0, 3, 0, 0, 1, 2, 7]]) = .error .checksumMismatch ∧
      decode [[0, 0, 0, 3, 0, 0, 1, 2, 3], [0, 1, 0, 3, 0, 4, 204, 211, 90], [0, 2, 0, 3, 0, 80]] =
        .error .checksumMismatch := by
  have hencode : encode [0, 1, 2, 3, 4] 9 = .ok [[0, 0, 0, 3, 0, 0, 1, 2, 3],
      [0, 1, 0, 3, 0, 4, 204, 211, 90], [0, 2, 0, 3, 0, 81]] := by cbv
  have hparts : ∀ f ∈ [[0, 0, 0, 3, 0, 0, 1, 2, 3], [0, 1, 0, 3, 0, 4, 204, 211, 90],
      [0, 2, 0, 3, 0, 81]], ∃ index count chunk, IsPart index count chunk f := by
    simp only [List.forall_mem_cons, List.not_mem_nil, false_implies, implies_true, and_true]
    exact ⟨⟨0, 3, [0, 1, 2, 3], rfl, by decide⟩, ⟨1, 3, [4, 204, 211, 90], rfl, by decide⟩,
      ⟨2, 3, [81], rfl, by decide⟩⟩
  obtain ⟨hwithin, hbyte⟩ := altered_refused hencode hparts
  refine ⟨_, hencode, rfl, ?_, ?_⟩
  · refine hwithin [[0, 0, 0, 3, 0, 0, 1, 2, 7], [0, 1, 0, 3, 0, 5, 204, 0, 90], [0, 2, 0, 3, 0, 81]] _
      ⟨rfl, [0, 1, 2], [3, 4, 204, 211], [7, 5, 204, 0], [90, 81], rfl, rfl, rfl, by decide, by decide⟩
      fun f => ⟨fun hf => ?_, fun hf => ?_⟩ <;>
      revert f <;> decide
  · exact hbyte [[0, 0, 0, 3, 0, 0, 1, 2, 3], [0, 1, 0, 3, 0, 4, 204, 211, 90]] [] [0, 2, 0, 3, 0] [] 81 80
      _ rfl (by decide) (by decide) fun f => Iff.rfl

end Frame

end ColdSigner.Wire
