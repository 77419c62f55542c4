import ColdSigner.Proofs.Wire.Checksum
import ColdSigner.Proofs.Wire.CompactForm
import ColdSigner.Wire.Collector

/-! Frames put together again.

A payload that is cut into frames comes back when these are collected. The state of
the collector after some chunks is not found by running it: `gathered` computes it
from the chunks, and one frame takes `gathered` of the chunks before to `gathered`
of the chunks after. -/
namespace ColdSigner.Wire

/-! ### Chunks -/

namespace Frame

variable {α : Type}

theorem chunks_go (n : Nat) (acc : List (List α)) (xs : List α) :
    chunks.go n acc xs = acc.reverse ++ chunks.go n [] xs := by
  induction h : xs.length using Nat.strongRecOn generalizing acc xs with
  | ind k ih =>
    rw [chunks.go, chunks.go.eq_def n [] xs]
    split
    · rw [List.reverse_nil, List.append_nil]
    · next hn =>
      have hx : xs.length ≠ 0 := fun hl => hn (.inr (List.length_eq_zero_iff.1 hl))
      have hlt : (xs.drop n).length < k := by
        rw [List.length_drop]
        omega
      rw [ih _ hlt _ _ rfl, ih _ hlt [xs.take n] _ rfl, List.reverse_cons, List.append_assoc]
      rfl

theorem chunks_nil (n : Nat) : chunks n ([] : List α) = [] := by
  unfold chunks
  split
  · rfl
  · rw [chunks.go, dif_pos (.inr rfl), List.reverse_nil]

/-- One chunk comes off the front. -/
theorem chunks_cons {n : Nat} {xs : List α} (hn : n ≠ 0) (hx : xs ≠ []) :
    chunks n xs = xs.take n :: chunks n (xs.drop n) := by
  unfold chunks
  rw [if_neg hn, if_neg hn, chunks.go, dif_neg (not_or.2 ⟨hn, hx⟩), chunks_go]
  rfl

theorem flatten_chunks {n : Nat} (hn : n ≠ 0) (xs : List α) : (chunks n xs).flatten = xs := by
  induction h : xs.length using Nat.strongRecOn generalizing xs with
  | ind k ih =>
    by_cases hx : xs = []
    · rw [hx, chunks_nil, List.flatten_nil]
    · have hlt : (xs.drop n).length < k := by
        have := List.length_pos_iff.2 hx
        rw [List.length_drop]
        omega
      rw [chunks_cons hn hx, List.flatten_cons, ih _ hlt _ rfl, List.take_append_drop]

theorem length_chunks {n : Nat} (hn : n ≠ 0) (xs : List α) :
    (chunks n xs).length = (xs.length + n - 1) / n := by
  induction h : xs.length using Nat.strongRecOn generalizing xs with
  | ind k ih =>
    have hpos := Nat.pos_of_ne_zero hn
    by_cases hx : xs = []
    · subst hx
      rw [chunks_nil, ← h]
      exact (Nat.div_eq_of_lt (by rw [List.length_nil]; omega)).symm
    · have hlength := List.length_pos_iff.2 hx
      have hdrop : (xs.drop n).length = k - n := by rw [List.length_drop, h]
      rw [chunks_cons hn hx, List.length_cons, ih (k - n) (by omega) _ hdrop]
      by_cases hlong : n ≤ k
      · rw [show k + n - 1 = (k - n + n - 1) + n by omega, Nat.add_div_right _ hpos]
      · rw [show k - n + n - 1 = n - 1 by omega, Nat.div_eq_of_lt (show n - 1 < n by omega)]
        exact (Nat.div_eq_of_lt_le (by omega) (by omega)).symm

end Frame

/-! ### Headers -/

theorem FrameHeader.decode_encode (h : FrameHeader) (rest : Bytes) :
    FrameHeader.decode (h.encode ++ rest) = .ok (h, rest) := by
  obtain ⟨marker, index, count⟩ := h
  have hindex : Bytes.toNat (Bytes.ofNat 2 index.toNat) = index.toNat :=
    Bytes.toNat_ofNat_of_lt index.toNat_lt
  have hcount : Bytes.toNat (Bytes.ofNat 2 count.toNat) = count.toNat :=
    Bytes.toNat_ofNat_of_lt count.toNat_lt
  have hfirst : Compact.split 1 (encode ⟨marker, index, count⟩ ++ rest) =
      .ok ([marker], Bytes.ofNat 2 index.toNat ++ (Bytes.ofNat 2 count.toNat ++ rest)) :=
    Compact.split_eq_ok.2 ⟨rfl, by simp [encode]⟩
  have hsecond : Compact.split 2 (Bytes.ofNat 2 index.toNat ++ (Bytes.ofNat 2 count.toNat ++ rest)) =
      .ok (Bytes.ofNat 2 index.toNat, Bytes.ofNat 2 count.toNat ++ rest) :=
    Compact.split_eq_ok.2 ⟨Bytes.length_ofNat .., rfl⟩
  have hthird : Compact.split 2 (Bytes.ofNat 2 count.toNat ++ rest) =
      .ok (Bytes.ofNat 2 count.toNat, rest) :=
    Compact.split_eq_ok.2 ⟨Bytes.length_ofNat .., rfl⟩
  have hmarker : Bytes.toNat [marker] = marker.toNat := Nat.add_zero _
  simp only [decode, bind_eq_ok, Prod.exists, pure_eq_ok]
  exact ⟨_, _, hfirst, _, _, hsecond, _, _, hthird, by
    rw [hmarker, hindex, hcount, UInt8.ofNat_toNat, UInt16.ofNat_toNat, UInt16.ofNat_toNat]⟩

theorem FrameHeader.encode_append_inj {h k : FrameHeader} {c d : Bytes}
    (heq : h.encode ++ c = k.encode ++ d) : h = k ∧ c = d :=
  Prod.mk.inj (Except.ok.inj
    ((decode_encode h c).symm.trans ((congrArg decode heq).trans (decode_encode k d))))

/-! ### Collecting -/

/-- A chunk goes behind those with lower indices. -/
theorem insertEntry_of_lt {entries : List (UInt16 × Bytes)} {k : UInt16} (v : Bytes)
    (h : ∀ e ∈ entries, e.1 < k) : Table.insertEntry k v entries = entries ++ [(k, v)] := by
  induction entries with
  | nil => rfl
  | cons e rest ih =>
    have hlt := h e (List.mem_cons_self ..)
    rw [Table.insertEntry, if_neg (UInt16.ne_of_lt hlt).symm, if_neg (UInt16.lt_asymm hlt),
      ih fun e he => h e (List.mem_cons_of_mem _ he)]
    rfl

/-- The frame of one chunk. -/
def Frame.piece (count : UInt16) (i : Nat) (c : Bytes) : Bytes :=
  FrameHeader.encode ⟨FrameHeader.multipart, UInt16.ofNat i, count⟩ ++ c

namespace Collector

/-- The collector that has these chunks, the first of `count`. -/
def gathered (count : UInt16) (cs : List Bytes) : Collector where
  total := if cs = [] then none else some count
  chunks := ⟨cs.mapIdx fun i c => (UInt16.ofNat i, c)⟩

variable {count : UInt16} {cs : List Bytes}

theorem key_lt {e : UInt16 × Bytes} (h : cs.length < UInt16.size)
    (he : e ∈ (gathered count cs).chunks.entries) : e.1 < UInt16.ofNat cs.length := by
  obtain ⟨i, hi, rfl⟩ := List.mem_mapIdx.1 he
  rw [UInt16.lt_iff_toNat_lt, UInt16.toNat_ofNat_of_lt' h,
    UInt16.toNat_ofNat_of_lt' (Nat.lt_trans hi h)]
  exact hi

theorem push_of_decode {collector : Collector} {frame tail chunk : Bytes} {header : FrameHeader}
    (hframe : frame = FrameHeader.multipart :: tail) (hsingle : collector.single = none)
    (hdecode : FrameHeader.decode frame = .ok (header, chunk)) :
    collector.push frame = collector.pushChunk header chunk := by
  subst hframe
  simp only [push, ne_eq, not_true, if_false, hsingle, Option.isSome_none, Bool.false_eq_true, hdecode]

theorem push_piece (h : cs.length < count.toNat) (c : Bytes) :
    (gathered count cs).push (Frame.piece count cs.length c) = .ok (gathered count (cs ++ [c])) := by
  have hsize : cs.length < UInt16.size := Nat.lt_trans h count.toNat_lt
  have hindex : (UInt16.ofNat cs.length).toNat = cs.length := UInt16.toNat_ofNat_of_lt' hsize
  have hcount : ¬ (count = 0 ∨ count.toNat ≤ (UInt16.ofNat cs.length).toNat) := by
    rw [hindex]
    intro h
    rcases h with rfl | hle
    · exact absurd h (Nat.not_lt_zero _)
    · omega
  have htotal : (gathered count cs).total.any (· ≠ count) = false := by
    unfold gathered
    split <;> simp
  have hfind : (gathered count cs).chunks.find? (UInt16.ofNat cs.length) = none := by
    rw [Table.find?, Option.map_eq_none_iff, List.find?_eq_none]
    intro e he
    simpa using UInt16.ne_of_lt (key_lt hsize he)
  have hpush : (gathered count cs).push (Frame.piece count cs.length c) =
      (gathered count cs).pushChunk ⟨FrameHeader.multipart, UInt16.ofNat cs.length, count⟩ c :=
    push_of_decode rfl rfl (FrameHeader.decode_encode _ c)
  rw [hpush]
  dsimp only [pushChunk]
  rw [if_neg hcount, htotal, if_neg Bool.false_ne_true, hfind, Option.isSome_none,
    if_neg Bool.false_ne_true, Table.insert, insertEntry_of_lt c fun e he => key_lt hsize he]
  simp [gathered, List.mapIdx_append]

/-- Frames in order take the chunks behind those that are there. -/
theorem foldlM_push (rest : List Bytes) (h : cs.length + rest.length ≤ count.toNat) :
    (rest.mapIdx fun i c => Frame.piece count (cs.length + i) c).foldlM push (gathered count cs) =
      .ok (gathered count (cs ++ rest)) := by
  induction rest generalizing cs with
  | nil =>
    rw [List.append_nil]
    rfl
  | cons c rest ih =>
    rw [List.length_cons] at h
    have hshift : (fun i d => Frame.piece count (cs.length + (i + 1)) d) =
        fun i d => Frame.piece count ((cs ++ [c]).length + i) d := by
      funext i d
      rw [List.length_append, List.length_singleton, Nat.add_assoc, Nat.add_comm i]
    rw [List.mapIdx_cons, hshift, List.foldlM_cons, Nat.add_zero, push_piece (by omega)]
    show List.foldlM push _ _ = _
    rw [ih (by rw [List.length_append, List.length_singleton]; omega), List.append_assoc]
    rfl

theorem values_gathered : (gathered count cs).chunks.values = cs := by
  refine List.ext_getElem? fun i => ?_
  simp [gathered, Table.values, Function.comp_def]

theorem checked_append (payload : Bytes) :
    checked (payload ++ Checksum.encode payload) = .ok payload := by
  have htake : (payload ++ Checksum.encode payload).length - Checksum.length = payload.length := by
    rw [Checksum.length_append_encode, Nat.add_sub_cancel]
  unfold checked
  dsimp only
  rw [htake, List.take_left, List.drop_left, Checksum.length_append_encode,
    if_neg (by omega), if_pos rfl]

/-- All chunks give what they hold before its checksum. -/
theorem finish_gathered (hne : cs ≠ []) (hcount : cs.length = count.toNat) :
    (gathered count cs).finish = checked cs.flatten := by
  have hsize : (gathered count cs).chunks.size = count.toNat := by
    simp [gathered, Table.size, hcount]
  have hfinish : (gathered count cs).finish =
      match (gathered count cs).total with
      | none => .error .incompleteSequence
      | some total =>
        if (gathered count cs).chunks.size ≠ total.toNat then .error .incompleteSequence
        else checked (gathered count cs).chunks.values.flatten := by
    unfold finish
    dsimp only [gathered]
    split <;> simp_all
  rw [hfinish, show (gathered count cs).total = some count from if_neg hne]
  dsimp only
  rw [if_neg (not_not_intro hsize), values_gathered]

end Collector

/-- The frames of all chunks, in order, give the payload. -/
theorem Frame.decode_pieces {payload : Bytes} {count : UInt16} {cs : List Bytes} (hne : cs ≠ [])
    (hcount : cs.length = count.toNat) (hdata : cs.flatten = payload ++ Checksum.encode payload) :
    decode (cs.mapIdx (piece count)) = .ok payload := by
  have hfold := @Collector.foldlM_push count [] cs (by
    rw [List.length_nil, Nat.zero_add]
    exact Nat.le_of_eq hcount)
  simp only [List.length_nil, Nat.zero_add, List.nil_append] at hfold
  show List.foldlM Collector.push (Collector.gathered count []) _ >>= Collector.finish = _
  refine bind_eq_ok.2 ⟨_, hfold, ?_⟩
  rw [Collector.finish_gathered hne hcount, hdata, Collector.checked_append]

/-! ### The frames of a payload -/

namespace Frame

variable {payload : Bytes} {capacity : Nat} {frames : List Bytes}

theorem isSingle_eq_true : isSingle capacity payload = true ↔ payload.length ≤ capacity ∧
    ∃ first rest, payload = first :: rest ∧ first ≠ FrameHeader.multipart := by
  cases payload <;> simp [isSingle]

/-- The chunks that a payload is cut into, with its checksum behind it. -/
def cut (payload : Bytes) (capacity : Nat) : List Bytes :=
  chunks (capacity - FrameHeader.length) (payload ++ Checksum.encode payload)

theorem flatten_cut (hcapacity : FrameHeader.length < capacity) :
    (cut payload capacity).flatten = payload ++ Checksum.encode payload :=
  flatten_chunks (by omega) _

theorem cut_ne_nil (hcapacity : FrameHeader.length < capacity) : cut payload capacity ≠ [] := by
  intro hnil
  have hflat := @flatten_cut payload capacity hcapacity
  rw [hnil] at hflat
  have hlength := congrArg List.length hflat
  rw [Checksum.length_append_encode] at hlength
  cases hlength

theorem length_cut (hcapacity : FrameHeader.length < capacity) :
    (cut payload capacity).length =
      (payload.length + Checksum.length + (capacity - FrameHeader.length) - 1) /
        (capacity - FrameHeader.length) := by
  rw [cut, length_chunks (by omega), Checksum.length_append_encode]

/-- The chunks are counted exactly if payload and capacity together are no more than `wordSize`. -/
theorem chunkCount_cut (hcapacity : FrameHeader.length < capacity) :
    chunkCount (payload ++ Checksum.encode payload).length (capacity - FrameHeader.length) =
      if payload.length + capacity ≤ wordSize then .ok (cut payload capacity).length
      else .error .overflow := by
  have hsum : payload.length + Checksum.length + (capacity - FrameHeader.length) + 1 =
      payload.length + capacity := by
    have hheader : FrameHeader.length = 5 := rfl
    have hchecksum : Checksum.length = 4 := rfl
    omega
  rw [chunkCount, addLengths, Checksum.length_append_encode, ← hsum, length_cut hcapacity]
  simp only [Nat.succ_le_iff]
  split <;> rfl

theorem encode_of_isSingle (hcapacity : FrameHeader.length < capacity)
    (h : isSingle capacity payload = true) : encode payload capacity = .ok [payload] := by
  rw [encode, if_neg (Nat.not_le.2 hcapacity), if_pos h]

/-- A payload that is not its own frame is cut, if its chunks can be counted and their number
stands in a header. -/
theorem encode_of_not_isSingle (hcapacity : FrameHeader.length < capacity)
    (h : isSingle capacity payload = false) :
    encode payload capacity =
      if payload.length + capacity ≤ wordSize then
        if (cut payload capacity).length < UInt16.size then
          .ok ((cut payload capacity).mapIdx (piece (UInt16.ofNat (cut payload capacity).length)))
        else .error .payloadTooLarge
      else .error .overflow := by
  rw [encode, if_neg (Nat.not_le.2 hcapacity), h, if_neg Bool.false_ne_true]
  dsimp only
  rw [chunkCount_cut hcapacity]
  split <;> rfl

/-- A payload is its own frame, or its frames are the chunks it is cut into, which are as many
as every header says. -/
theorem encode_eq_ok (h : encode payload capacity = .ok frames) :
    FrameHeader.length < capacity ∧
      ((frames = [payload] ∧ payload.length ≤ capacity ∧
          ∃ first rest, payload = first :: rest ∧ first ≠ FrameHeader.multipart) ∨
        ∃ count : UInt16, (cut payload capacity).length = count.toNat ∧
          frames = (cut payload capacity).mapIdx (piece count)) := by
  by_cases hcapacity : FrameHeader.length < capacity
  · refine ⟨hcapacity, ?_⟩
    cases hsingle : isSingle capacity payload with
    | true =>
      rw [encode_of_isSingle hcapacity hsingle] at h
      exact .inl ⟨(Except.ok.inj h).symm, isSingle_eq_true.1 hsingle⟩
    | false =>
      rw [encode_of_not_isSingle hcapacity hsingle] at h
      split at h
      · split at h
        · next hsize => exact .inr ⟨_, (UInt16.toNat_ofNat_of_lt' hsize).symm, (Except.ok.inj h).symm⟩
        · cases h
      · cases h
  · rw [encode, if_pos (Nat.le_of_not_lt hcapacity)] at h
    cases h

/-- The frames of a payload give it back. -/
theorem decode_encode (h : encode payload capacity = .ok frames) : decode frames = .ok payload := by
  obtain ⟨hcapacity, ⟨rfl, -, first, rest, rfl, hfirst⟩ | ⟨count, hcount, rfl⟩⟩ := encode_eq_ok h
  · simp [decode, Collector.push, Collector.pushSingle, Collector.finish, hfirst]
  · exact decode_pieces (cut_ne_nil hcapacity) hcount (flatten_cut hcapacity)

end Frame

end ColdSigner.Wire
