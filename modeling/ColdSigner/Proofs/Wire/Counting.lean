import ColdSigner.Proofs.Wire.Reassembly

/-! How many frames the headers tell of.

The chunks of a payload are counted in words: the length of a chunk is added to that of the
data, one is taken away, and the rest is divided. Only the quotient is wanted, and it is small
where the chunk is large; but the sum is then no longer a word, and stops the program. What is
cut at all is counted right, so that every header tells its place and the number of frames. -/
namespace ColdSigner.Wire.Frame

/-- Every frame starts with a header that tells its place and a count. -/
def Headed (count : Nat) (frames : List Bytes) : Prop :=
  ∀ i f, frames[i]? = some f → ∃ h chunk, FrameHeader.decode f = .ok (h, chunk) ∧
    h.marker = FrameHeader.multipart ∧ h.index.toNat = i ∧ h.count.toNat = count

variable {payload : Bytes} {capacity : Nat} {count : UInt16} {cs : List Bytes}

theorem headed_pieces (h : cs.length = count.toNat) : Headed cs.length (cs.mapIdx (piece count)) := by
  intro i f hf
  obtain ⟨hi, rfl⟩ := List.getElem?_eq_some_iff.1 hf
  rw [List.length_mapIdx] at hi
  rw [List.getElem_mapIdx]
  have hindex : (UInt16.ofNat i).toNat = i :=
    UInt16.toNat_ofNat_of_lt' (Nat.lt_trans hi (h ▸ count.toNat_lt))
  exact ⟨_, _, FrameHeader.decode_encode _ _, rfl, hindex, h.symm⟩

theorem encode_eq_overflow_iff (hcapacity : FrameHeader.length < capacity) :
    encode payload capacity = .error .overflow ↔
      isSingle capacity payload = false ∧ wordSize < payload.length + capacity := by
  cases hsingle : isSingle capacity payload with
  | true => simp [encode_of_isSingle hcapacity hsingle]
  | false =>
    rw [encode_of_not_isSingle hcapacity hsingle]
    by_cases hword : payload.length + capacity ≤ wordSize
    · by_cases hsize : (cut payload capacity).length < UInt16.size <;> simp [hword, hsize]
    · simp [hword, Nat.lt_of_not_le hword]

theorem exists_encode_iff (hcapacity : FrameHeader.length < capacity) :
    (∃ frames, encode payload capacity = .ok frames) ↔ isSingle capacity payload = true ∨
      payload.length + capacity ≤ wordSize ∧ (cut payload capacity).length < UInt16.size := by
  cases hsingle : isSingle capacity payload with
  | true => simp [encode_of_isSingle hcapacity hsingle]
  | false =>
    rw [encode_of_not_isSingle hcapacity hsingle]
    by_cases hword : payload.length + capacity ≤ wordSize
    · by_cases hsize : (cut payload capacity).length < UInt16.size <;> simp [hword, hsize]
    · simp [hword]

/-- Counting the frames of a payload stops the program exactly if the payload is cut and its
length and the capacity together are more than `wordSize`. Where they are not, there are frames
unless their number is too large for a header. Whenever a payload is cut, every header tells its
place and how many frames there are. -/
theorem frames_counted_within_word (payload : Bytes) (capacity : Nat)
    (hcapacity : FrameHeader.length < capacity) :
    (encode payload capacity = .error .overflow ↔
        isSingle capacity payload = false ∧ wordSize < payload.length + capacity) ∧
      ((∃ frames, encode payload capacity = .ok frames) ↔ isSingle capacity payload = true ∨
        payload.length + capacity ≤ wordSize ∧ (cut payload capacity).length < UInt16.size) ∧
      ∀ frames, encode payload capacity = .ok frames →
        (isSingle capacity payload = true ∧ frames = [payload]) ∨
          (isSingle capacity payload = false ∧ frames.length = (cut payload capacity).length ∧
            Headed frames.length frames) := by
  refine ⟨encode_eq_overflow_iff hcapacity, exists_encode_iff hcapacity, fun frames hframes => ?_⟩
  obtain ⟨-, ⟨rfl, hsingle⟩ | ⟨count, hcount, rfl⟩⟩ := encode_eq_ok hframes
  · exact .inl ⟨isSingle_eq_true.2 hsingle, rfl⟩
  · cases hsingle : isSingle capacity payload with
    | true =>
      rw [encode_of_isSingle hcapacity hsingle] at hframes
      exact .inl ⟨rfl, (Except.ok.inj hframes).symm⟩
    | false =>
      rw [List.length_mapIdx]
      exact .inr ⟨rfl, rfl, headed_pieces hcount⟩

/-- The largest word. -/
def fullCapacity : Nat := wordSize - 1

/-- At the largest capacity, a byte that is cut gives a frame, and two stop the program. -/
theorem frames_counted_at_full_capacity : FrameHeader.length < fullCapacity ∧
    (∃ frames, encode [0] fullCapacity = .ok frames ∧ Headed 1 frames) ∧
      encode [0, 0] fullCapacity = .error .overflow := by
  have hcapacity : FrameHeader.length < fullCapacity := by decide
  have hone : (cut [0] fullCapacity).length = 1 := length_cut hcapacity
  refine ⟨hcapacity, ?_, ?_⟩
  · obtain ⟨-, hexists, hheaded⟩ := frames_counted_within_word [0] fullCapacity hcapacity
    obtain ⟨frames, hencode⟩ := hexists.2 (.inr ⟨by decide, hone ▸ by decide⟩)
    obtain ⟨h, -⟩ | ⟨-, hlength, h⟩ := hheaded frames hencode
    · cases h
    · exact ⟨frames, hencode, hlength.trans hone ▸ h⟩
  · exact (frames_counted_within_word [0, 0] fullCapacity hcapacity).1.2 ⟨rfl, by decide⟩

/-- At the largest capacity, the sum for three bytes is no word, though they would take one
frame. -/
theorem count_at_full_capacity_overflows : FrameHeader.length < fullCapacity ∧
    fullCapacity < wordSize ∧
      addLengths (([0, 0, 0] : Bytes).length + Checksum.length)
        (fullCapacity - FrameHeader.length) = .error .overflow ∧
      (cut [0, 0, 0] fullCapacity).length = 1 ∧
      encode [0, 0, 0] fullCapacity = .error .overflow := by
  have hcapacity : FrameHeader.length < fullCapacity := by decide
  exact ⟨hcapacity, by decide, rfl, length_cut hcapacity, rfl⟩

end ColdSigner.Wire.Frame
