import ColdSigner.Proofs.Table
import ColdSigner.Proofs.Wire.Reassembly

/-! Frames in any order.

The frames of a payload may be scanned in any order and any number of times. The
collector is again not run: `holding` computes it from the indices that were seen,
and a frame adds its index to them, whether it is new or not. All are there when
every index was seen, and then the collector is that of the frames in order. -/
namespace ColdSigner.Wire

/-! ### The frames of a payload -/

namespace Frame

variable {α : Type}

theorem length_le_of_mem_chunks {n : Nat} {xs c : List α} (h : c ∈ chunks n xs) : c.length ≤ n := by
  by_cases hn : n = 0
  · rw [chunks, if_pos hn] at h
    cases h
  induction hlength : xs.length using Nat.strongRecOn generalizing xs with
  | ind k ih =>
    by_cases hx : xs = []
    · rw [hx, chunks_nil] at h
      cases h
    · rw [chunks_cons hn hx] at h
      rcases List.mem_cons.1 h with rfl | h
      · rw [List.length_take]
        exact Nat.min_le_left ..
      · have hlt : (xs.drop n).length < k := by
          have := List.length_pos_iff.2 hx
          rw [List.length_drop]
          omega
        exact ih _ hlt h rfl

theorem length_piece (count : UInt16) (i : Nat) (c : Bytes) :
    (piece count i c).length = FrameHeader.length + c.length := by
  simp [piece, FrameHeader.encode, FrameHeader.length]
  omega

/-- The header of a frame tells its index. -/
theorem index_inj {count : UInt16} {i j : Nat} {c d : Bytes} (hi : i < UInt16.size) (hj : j < UInt16.size)
    (h : piece count i c = piece count j d) : i = j := by
  have hindex : UInt16.ofNat i = UInt16.ofNat j :=
    congrArg FrameHeader.index (FrameHeader.encode_append_inj h).1
  rw [← UInt16.toNat_ofNat_of_lt' hi, hindex, UInt16.toNat_ofNat_of_lt' hj]

end Frame

/-! ### What was seen -/

namespace Collector

/-- The collector that has the chunks whose indices were seen. -/
def holding (count : UInt16) (cs : List Bytes) (seen : List Nat) : Collector where
  total := if seen = [] then none else some count
  chunks := ⟨(cs.mapIdx fun i c => (UInt16.ofNat i, c)).filter fun e => e.1.toNat ∈ seen⟩

variable {count : UInt16} {cs : List Bytes}

theorem holding_nil : holding count cs [] = {} := by simp [holding]

theorem toNat_index (h : cs.length = count.toNat) {i : Nat} (hi : i < cs.length) :
    (UInt16.ofNat i).toNat = i :=
  UInt16.toNat_ofNat_of_lt' (Nat.lt_trans (h ▸ hi) count.toNat_lt)

theorem ordered_entries (h : cs.length = count.toNat) :
    (cs.mapIdx fun i c => (UInt16.ofNat i, c)).Pairwise fun a b => a.1 < b.1 := by
  rw [List.pairwise_iff_getElem]
  intro i j hi hj hij
  rw [List.length_mapIdx] at hi hj
  rw [List.getElem_mapIdx, List.getElem_mapIdx, UInt16.lt_iff_toNat_lt, toNat_index h hi,
    toNat_index h hj]
  exact hij

theorem mem_entries {i : Nat} (hi : i < cs.length) :
    (UInt16.ofNat i, cs.getD i []) ∈ cs.mapIdx fun i c => (UInt16.ofNat i, c) :=
  List.mem_mapIdx.2 ⟨i, hi, by simp [hi]⟩

/-- A frame is there when its index was seen. -/
theorem isSome_find?_holding (h : cs.length = count.toNat) {seen : List Nat} {i : Nat}
    (hi : i < cs.length) :
    ((holding count cs seen).chunks.find? (UInt16.ofNat i)).isSome = true ↔ i ∈ seen := by
  have hordered : (holding count cs seen).chunks.Ordered :=
    (ordered_entries h).sublist List.filter_sublist
  have hentry (c : Bytes) : (holding count cs seen).chunks.find? (UInt16.ofNat i) = some c ↔
      (UInt16.ofNat i, c) ∈ cs.mapIdx (fun i c => (UInt16.ofNat i, c)) ∧ i ∈ seen := by
    rw [hordered.find?_eq_some, holding, List.mem_filter, decide_eq_true_eq, toNat_index h hi]
  rw [Option.isSome_iff_exists]
  exact ⟨fun ⟨c, hc⟩ => ((hentry c).1 hc).2, fun hseen => ⟨_, (hentry _).2 ⟨mem_entries hi, hseen⟩⟩⟩

/-- A frame adds its index to those that were seen. -/
theorem push_holding (h : cs.length = count.toNat) (seen : List Nat) {i : Nat} (hi : i < cs.length) :
    (holding count cs seen).push (Frame.piece count i (cs.getD i [])) =
      .ok (holding count cs (seen ++ [i])) := by
  have hindex := toNat_index h hi
  have hcount : ¬ (count = 0 ∨ count.toNat ≤ (UInt16.ofNat i).toNat) := by
    rw [hindex]
    rintro (rfl | hle)
    · exact absurd (h ▸ hi) (Nat.not_lt_zero _)
    · omega
  have htotal : (holding count cs seen).total.any (· ≠ count) = false := by
    unfold holding
    split <;> simp
  have hpush : (holding count cs seen).push (Frame.piece count i (cs.getD i [])) =
      (holding count cs seen).pushChunk ⟨FrameHeader.multipart, UInt16.ofNat i, count⟩ (cs.getD i []) :=
    push_of_decode rfl rfl (FrameHeader.decode_encode _ _)
  have hsame (e : UInt16 × Bytes) :
      (decide (e.1.toNat ∈ seen) || decide (e.1 = UInt16.ofNat i)) = decide (e.1.toNat ∈ seen ++ [i]) := by
    have hkey : e.1 = UInt16.ofNat i ↔ e.1.toNat = i := by rw [← UInt16.toNat_inj, hindex]
    simp [hkey]
  -- a frame that was seen changes nothing, and another goes where its index belongs
  have hchunks : (if ((holding count cs seen).chunks.find? (UInt16.ofNat i)).isSome = true then
      (holding count cs seen).chunks
        else (holding count cs seen).chunks.insert (UInt16.ofNat i) (cs.getD i [])) =
      (holding count cs (seen ++ [i])).chunks := by
    by_cases hseen : i ∈ seen
    · rw [if_pos ((isSome_find?_holding h hi).2 hseen)]
      refine congrArg Table.mk (List.filter_congr fun e _ => ?_)
      simp only [List.mem_append, List.mem_singleton, decide_eq_decide]
      exact ⟨.inl, fun hmem => hmem.elim id fun heq => heq ▸ hseen⟩
    · rw [if_neg (mt (isSome_find?_holding h hi).1 hseen)]
      refine congrArg Table.mk ?_
      have hinsert := Table.insertEntry_filter (ordered_entries h) (mem_entries hi)
        (p := fun k => decide (k.toNat ∈ seen)) (by simpa [hindex] using hseen)
      exact hinsert.trans (List.filter_congr fun e _ => hsame e)
  rw [hpush]
  dsimp only [pushChunk]
  rw [if_neg hcount, htotal, if_neg Bool.false_ne_true, hchunks]
  simp [holding]

theorem foldlM_push_holding (h : cs.length = count.toNat) (seen is : List Nat)
    (his : ∀ i ∈ is, i < cs.length) :
    (is.map fun i => Frame.piece count i (cs.getD i [])).foldlM push (holding count cs seen) =
      .ok (holding count cs (seen ++ is)) := by
  induction is generalizing seen with
  | nil =>
    rw [List.append_nil]
    rfl
  | cons i rest ih =>
    rw [List.map_cons, List.foldlM_cons, push_holding h seen (his i (List.mem_cons_self ..))]
    show List.foldlM push _ _ = _
    rw [ih _ fun j hj => his j (List.mem_cons_of_mem _ hj), List.append_assoc]
    rfl

/-- The collector is complete when every index was seen. -/
theorem isComplete_holding (hne : cs ≠ []) (h : cs.length = count.toNat) (seen : List Nat) :
    (holding count cs seen).isComplete = true ↔ ∀ i, i < cs.length → i ∈ seen := by
  have hpos := List.length_pos_iff.2 hne
  have hall : (holding count cs seen).chunks.size = cs.length ↔ ∀ i, i < cs.length → i ∈ seen := by
    rw [holding, Table.size, ← List.length_mapIdx (f := fun i c => (UInt16.ofNat i, c)) (l := cs),
      List.length_filter_eq_length_iff]
    simp only [List.mem_mapIdx, decide_eq_true_eq, List.length_mapIdx]
    constructor
    · intro hmem i hi
      have := hmem _ ⟨i, hi, rfl⟩
      rwa [toNat_index h hi] at this
    · rintro hmem _ ⟨i, hi, rfl⟩
      rw [toNat_index h hi]
      exact hmem i hi
  rw [← hall]
  by_cases hseen : seen = []
  · subst hseen
    have hempty : (holding count cs []).chunks.size = 0 := by simp [holding, Table.size]
    rw [hempty]
    exact iff_of_false Bool.false_ne_true (by omega)
  · have hprogress : (holding count cs seen).progress =
        ⟨(holding count cs seen).chunks.size, count.toNat⟩ := by
      simp [progress, holding, hseen]
    rw [isComplete, hprogress, Progress.isComplete, ← h]
    simp [hpos]

/-- With every index seen, the collector is that of the chunks in order. -/
theorem holding_eq_gathered (hne : cs ≠ []) (h : cs.length = count.toNat) {seen : List Nat}
    (hall : ∀ i, i < cs.length → i ∈ seen) : holding count cs seen = gathered count cs := by
  have hseen : seen ≠ [] := List.ne_nil_of_mem (hall 0 (List.length_pos_iff.2 hne))
  unfold holding gathered
  rw [if_neg hseen, if_neg hne, List.filter_eq_self.2]
  intro e he
  obtain ⟨i, hi, rfl⟩ := List.mem_mapIdx.1 he
  rw [decide_eq_true_eq, toNat_index h hi]
  exact hall i hi

/-- Nothing is given out before it is complete. -/
theorem finish_of_incomplete {c : Collector} (htotal : c.total ≠ some 0) (h : c.isComplete = false) :
    c.finish = .error .incompleteSequence := by
  unfold finish
  unfold isComplete progress at h
  split
  · next hsingle =>
    rw [hsingle] at h
    cases h
  · rfl
  · next total hsingle hcount =>
    have hpos : 0 < total.toNat := by
      rw [Nat.pos_iff_ne_zero]
      intro hzero
      exact htotal (hcount.trans (congrArg some (UInt16.toNat_inj.1 hzero)))
    rw [hsingle, hcount] at h
    rw [if_pos]
    simpa [Progress.isComplete, hpos] using h

end Collector

/-! ### Frames of one payload -/

/-- What a collector makes of frames of a payload: it takes them all, and it is complete
and gives the payload out when none is missing. -/
def Collector.Gathers (payload : Bytes) (frames seq : List Bytes) (c : Collector) : Prop :=
  seq.foldlM push {} = .ok c ∧ (c.isComplete = true ↔ ∀ f ∈ frames, f ∈ seq) ∧
    c.finish = if ∀ f ∈ frames, f ∈ seq then .ok payload else .error .incompleteSequence

namespace Frame

variable {payload : Bytes} {count : UInt16} {cs : List Bytes}

theorem exists_indices {seq : List Bytes} (h : ∀ f ∈ seq, f ∈ cs.mapIdx (piece count)) :
    ∃ is : List Nat, (∀ i ∈ is, i < cs.length) ∧ seq = is.map fun i => piece count i (cs.getD i []) := by
  induction seq with
  | nil => exact ⟨[], nofun, rfl⟩
  | cons f rest ih =>
    obtain ⟨is, his, rfl⟩ := ih fun g hg => h g (List.mem_cons_of_mem _ hg)
    obtain ⟨i, hi, rfl⟩ := List.mem_mapIdx.1 (h f (List.mem_cons_self ..))
    refine ⟨i :: is, fun j hj => ?_, by simp [hi]⟩
    rcases List.mem_cons.1 hj with rfl | hj
    · exact hi
    · exact his j hj

/-- No frame is missing when no index is. -/
theorem all_frames_iff (h : cs.length = count.toNat) {is : List Nat} (his : ∀ i ∈ is, i < cs.length) :
    (∀ f ∈ cs.mapIdx (piece count), f ∈ is.map fun i => piece count i (cs.getD i [])) ↔
      ∀ i, i < cs.length → i ∈ is := by
  have hsize {i : Nat} (hi : i < cs.length) : i < UInt16.size := Nat.lt_trans (h ▸ hi) count.toNat_lt
  constructor
  · intro hall i hi
    obtain ⟨j, hj, heq⟩ := List.mem_map.1 (hall _ (List.mem_mapIdx.2 ⟨i, hi, rfl⟩))
    obtain rfl := index_inj (hsize (his j hj)) (hsize hi) heq
    exact hj
  · intro hall f hf
    obtain ⟨i, hi, rfl⟩ := List.mem_mapIdx.1 hf
    exact List.mem_map.2 ⟨i, hall i hi, by simp [hi]⟩

theorem exists_gathers_pieces (hne : cs ≠ []) (h : cs.length = count.toNat)
    (hdata : cs.flatten = payload ++ Checksum.encode payload) {seq : List Bytes}
    (hseq : ∀ f ∈ seq, f ∈ cs.mapIdx (piece count)) :
    ∃ c, Collector.Gathers payload (cs.mapIdx (piece count)) seq c := by
  obtain ⟨is, his, rfl⟩ := exists_indices hseq
  have hfold := Collector.foldlM_push_holding h [] is his
  rw [List.nil_append, Collector.holding_nil] at hfold
  refine ⟨Collector.holding count cs is, hfold, ?_, ?_⟩
  · rw [Collector.isComplete_holding hne h, all_frames_iff h his]
  · by_cases hall : ∀ i, i < cs.length → i ∈ is
    · rw [if_pos ((all_frames_iff h his).2 hall), Collector.holding_eq_gathered hne h hall,
        Collector.finish_gathered hne h, hdata, Collector.checked_append]
    · rw [if_neg (mt (all_frames_iff h his).1 hall)]
      refine Collector.finish_of_incomplete ?_ ?_
      · have hcount : count ≠ 0 := by
          rintro rfl
          exact hne (List.length_eq_zero_iff.1 h)
        unfold Collector.holding
        split <;> simp [hcount]
      · rw [Bool.eq_false_iff]
        exact mt (Collector.isComplete_holding hne h is).1 hall

/-- A payload that is its own frame is there from the first copy on. -/
theorem exists_gathers_single {first : UInt8} {rest : Bytes} (hfirst : first ≠ FrameHeader.multipart)
    {seq : List Bytes} (hseq : ∀ f ∈ seq, f ∈ [first :: rest]) :
    ∃ c, Collector.Gathers (first :: rest) [first :: rest] seq c := by
  have hagain (copies : List Bytes) (hcopies : ∀ f ∈ copies, f ∈ [first :: rest]) :
      copies.foldlM Collector.push { single := some (first :: rest) } =
        .ok { single := some (first :: rest) } := by
    induction copies with
    | nil => rfl
    | cons f copies ih =>
      obtain rfl := List.mem_singleton.1 (hcopies f (List.mem_cons_self ..))
      have hpush : Collector.push { single := some (first :: rest) } (first :: rest) =
          .ok { single := some (first :: rest) } := by
        simp [Collector.push, Collector.pushSingle, hfirst]
      rw [List.foldlM_cons, hpush]
      exact ih fun g hg => hcopies g (List.mem_cons_of_mem _ hg)
  cases seq with
  | nil => exact ⟨{}, rfl, by simp [Collector.isComplete, Collector.progress, Progress.isComplete], rfl⟩
  | cons f copies =>
    obtain rfl := List.mem_singleton.1 (hseq f (List.mem_cons_self ..))
    have hpush : Collector.push {} (first :: rest) = .ok { single := some (first :: rest) } := by
      simp [Collector.push, Collector.pushSingle, hfirst]
    refine ⟨{ single := some (first :: rest) }, ?_, ?_, ?_⟩
    · rw [List.foldlM_cons, hpush]
      exact hagain copies fun g hg => hseq g (List.mem_cons_of_mem _ hg)
    · simp [Collector.isComplete, Collector.progress, Progress.isComplete]
    · simp [Collector.finish]

theorem exists_gathers {capacity : Nat} {frames : List Bytes} (h : encode payload capacity = .ok frames)
    {seq : List Bytes} (hseq : ∀ f ∈ seq, f ∈ frames) : ∃ c, Collector.Gathers payload frames seq c := by
  obtain ⟨hcapacity, ⟨rfl, -, first, rest, rfl, hfirst⟩ | ⟨count, hcount, rfl⟩⟩ := encode_eq_ok h
  · exact exists_gathers_single hfirst hseq
  · exact exists_gathers_pieces (cut_ne_nil hcapacity) hcount (flatten_cut hcapacity) hseq

theorem length_le_of_mem_encode {capacity : Nat} {frames : List Bytes}
    (h : encode payload capacity = .ok frames) {f : Bytes} (hf : f ∈ frames) : f.length ≤ capacity := by
  obtain ⟨hcapacity, ⟨rfl, hlength, -⟩ | ⟨count, -, rfl⟩⟩ := encode_eq_ok h
  · rw [List.mem_singleton.1 hf]
    exact hlength
  · obtain ⟨i, hi, rfl⟩ := List.mem_mapIdx.1 hf
    have hchunk := length_le_of_mem_chunks (List.getElem_mem hi)
    rw [length_piece]
    omega

end Frame

/-- The frames of a payload fit the capacity. In whatever order and however often they
are scanned, they give the payload once none is missing, and before that nothing; and
the collector is complete from the frame on that was the last to be missing. -/
theorem frames_in_any_order (payload : Bytes) (capacity : Nat) (frames : List Bytes)
    (h : Frame.encode payload capacity = .ok frames) :
    (∀ f ∈ frames, f.length ≤ capacity) ∧
      ∀ seq : List Bytes, (∀ f ∈ seq, f ∈ frames) →
        Frame.decode seq =
            (if ∀ f ∈ frames, f ∈ seq then .ok payload else .error .incompleteSequence) ∧
          ∃ c, seq.foldlM Collector.push {} = .ok c ∧
            (c.isComplete = true ↔ ∀ f ∈ frames, f ∈ seq) ∧
            ∀ last ∈ frames, ∃ c', c.push last = .ok c' ∧
              (c.isComplete = false ∧ c'.isComplete = true ↔
                last ∉ seq ∧ ∀ f ∈ frames, f ≠ last → f ∈ seq) := by
  refine ⟨fun f => Frame.length_le_of_mem_encode h, fun seq hseq => ?_⟩
  obtain ⟨c, hfold, hcomplete, hfinish⟩ := Frame.exists_gathers h hseq
  refine ⟨?_, c, hfold, hcomplete, fun last hlast => ?_⟩
  · rw [Frame.decode, hfold]
    exact hfinish
  · have hmore : ∀ f ∈ seq ++ [last], f ∈ frames := fun f hf =>
      (List.mem_append.1 hf).elim (hseq f) fun hf => List.mem_singleton.1 hf ▸ hlast
    obtain ⟨c', hfold', hcomplete', -⟩ := Frame.exists_gathers h hmore
    have hpush : c.push last = .ok c' := by
      rw [List.foldlM_append, hfold] at hfold'
      simpa [pure_bind] using hfold'
    refine ⟨c', hpush, ?_⟩
    rw [hcomplete', ← Bool.not_eq_true, hcomplete]
    simp only [List.mem_append, List.mem_singleton]
    constructor
    · rintro ⟨hmissing, hall⟩
      refine ⟨fun hlast => hmissing fun f hf => ?_, fun f hf hne => (hall f hf).resolve_right hne⟩
      exact (hall f hf).elim id fun heq => heq ▸ hlast
    · rintro ⟨hnew, hothers⟩
      refine ⟨fun hall => hnew (hall last hlast), fun f hf => ?_⟩
      exact Decidable.or_iff_not_imp_right.2 (hothers f hf)

/-- Three frames, of which the last two share the checksum: shown backwards and then
once more they give the payload, and twice without the first they do not. -/
theorem sample_frames_in_any_order : ∃ frames, Frame.encode [0, 1, 2, 3, 4] 9 = .ok frames ∧
    frames.length = 3 ∧ (∀ f ∈ frames, f.length ≤ 9) ∧
      Frame.decode (frames.reverse ++ frames) = .ok [0, 1, 2, 3, 4] ∧
        Frame.decode (frames.drop 1 ++ frames.drop 1) = .error .incompleteSequence := by
  have hencode : Frame.encode [0, 1, 2, 3, 4] 9 = .ok [[0, 0, 0, 3, 0, 0, 1, 2, 3],
      [0, 1, 0, 3, 0, 4, 204, 211, 90], [0, 2, 0, 3, 0, 81]] := by cbv
  obtain ⟨hlength, hall⟩ := frames_in_any_order [0, 1, 2, 3, 4] 9 _ hencode
  refine ⟨_, hencode, rfl, hlength, ?_, ?_⟩
  · exact (hall _ (by decide)).1.trans (if_pos (by decide))
  · exact (hall _ (by decide)).1.trans (if_neg (by decide))

end ColdSigner.Wire
