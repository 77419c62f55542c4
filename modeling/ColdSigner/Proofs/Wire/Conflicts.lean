import ColdSigner.Proofs.Table
import ColdSigner.Proofs.Wire.Reassembly

/-! Frames at odds with each other.

Whether frames can be put together does not depend on their order, and neither does
what they give, be they frames of one payload or not. What a collector does with a
frame is said once: it takes it as a whole payload, or takes it as a part, or refuses
it. Of two frames that it takes one after the other it also takes the second first, and
comes to the same. Only which of two parts of one index is kept is up to the order, so
the frames have to agree on these. -/
namespace ColdSigner.Wire

/-! ### Parts -/

theorem FrameHeader.length_encode (h : FrameHeader) : h.encode.length = FrameHeader.length := by
  simp [encode, FrameHeader.length]

theorem FrameHeader.eq_of_decode {frame chunk : Bytes} {h : FrameHeader}
    (hdecode : decode frame = .ok (h, chunk)) : frame = h.encode ++ chunk := by
  simp only [decode, bind_eq_ok, Prod.exists, Compact.split_eq_ok, pure_eq_ok] at hdecode
  obtain ⟨marker, _, ⟨hmarker, rfl⟩, index, _, ⟨hindex, rfl⟩, count, _, ⟨hcount, rfl⟩, heq⟩ := hdecode
  obtain ⟨rfl, rfl⟩ := Prod.mk.inj heq
  obtain ⟨first, rfl⟩ := List.length_eq_one_iff.1 hmarker
  have hfirst : UInt8.ofNat (Bytes.toNat [first]) = first := by simp [Bytes.toNat]
  have htwo {b : Bytes} (hb : b.length = 2) : Bytes.ofNat 2 (UInt16.ofNat (Bytes.toNat b)).toNat = b := by
    have hlt : Bytes.toNat b < UInt16.size := Nat.lt_of_lt_of_eq (Bytes.toNat_lt b) (by rw [hb]; rfl)
    rw [UInt16.toNat_ofNat_of_lt' hlt, ← hb, Bytes.ofNat_toNat]
  simp only [encode, hfirst, htwo hindex, htwo hcount, List.cons_append, List.nil_append,
    List.append_assoc]

namespace Frame

def header (frame : Bytes) : Bytes := frame.take FrameHeader.length

def body (frame : Bytes) : Bytes := frame.drop FrameHeader.length

theorem header_append (h : FrameHeader) (chunk : Bytes) : header (h.encode ++ chunk) = h.encode :=
  List.take_left' h.length_encode

theorem body_append (h : FrameHeader) (chunk : Bytes) : body (h.encode ++ chunk) = chunk :=
  List.drop_left' h.length_encode

/-- A well-formed frame with a header: its chunk is the one of `index` among `count`. -/
def IsPart (index count : UInt16) (chunk frame : Bytes) : Prop :=
  frame = FrameHeader.encode ⟨FrameHeader.multipart, index, count⟩ ++ chunk ∧ index < count

/-- Parts of one index and count carry the same chunk. -/
def Agree (frames : List Bytes) : Prop :=
  ∀ f ∈ frames, ∀ g ∈ frames, ∀ (index count : UInt16) (c d : Bytes),
    IsPart index count c f → IsPart index count d g → c = d

theorem IsPart.header_eq {index count : UInt16} {chunk frame : Bytes}
    (h : IsPart index count chunk frame) :
    header frame = FrameHeader.encode ⟨FrameHeader.multipart, index, count⟩ := by
  rw [h.1, header_append]

/-- Frames of which no two have the same header agree. -/
theorem agree_of_headers {frames : List Bytes}
    (h : ∀ f ∈ frames, ∀ g ∈ frames, header f = header g → f = g) : Agree frames := by
  intro f hf g hg index count c d hc hd
  obtain rfl := h f hf g hg (hc.header_eq.trans hd.header_eq.symm)
  exact (FrameHeader.encode_append_inj (hc.1.symm.trans hd.1)).2

theorem Agree.subset {frames rest : List Bytes} (h : Agree frames) (hrest : ∀ f ∈ rest, f ∈ frames) :
    Agree rest := fun f hf g hg => h f (hrest f hf) g (hrest g hg)

end Frame

/-! ### One frame -/

namespace Collector

/-- A collector takes a frame and becomes another. -/
inductive Takes (c : Collector) (frame : Bytes) : Collector → Prop where
  /-- A whole payload, as long as there is no other. -/
  | whole {first : UInt8} {rest : Bytes} (hframe : frame = first :: rest)
      (hfirst : first ≠ FrameHeader.multipart) (htotal : c.total = none)
      (hsame : ∀ s ∈ c.single, s = frame) : Takes c frame { c with single := some frame }
  /-- A part of a payload, as long as all others are parts of as many. -/
  | part {index count : UInt16} {chunk : Bytes} (hframe : Frame.IsPart index count chunk frame)
      (hsingle : c.single = none) (htotal : ∀ t ∈ c.total, t = count) :
      Takes c frame { c with total := some count, chunks := c.chunks.keep index chunk }

variable {c c' c₁ c₂ : Collector} {f g : Bytes}

theorem pushSingle_eq_ok {first : UInt8} {rest : Bytes} (hfirst : first ≠ FrameHeader.multipart) :
    c.push (first :: rest) = .ok c' ↔
      c.total = none ∧ (∀ s ∈ c.single, s = first :: rest) ∧
        c' = { c with single := some (first :: rest) } := by
  obtain ⟨single, total, chunks⟩ := c
  cases total with
  | some total => simp [push, pushSingle, hfirst]
  | none =>
    cases single with
    | none => simp [push, pushSingle, hfirst, eq_comm]
    | some s =>
      by_cases hs : s = first :: rest
      · simp [push, pushSingle, hfirst, hs, eq_comm]
      · simp [push, pushSingle, hfirst, hs]

theorem pushChunk_eq_ok {h : FrameHeader} {chunk : Bytes} :
    c.pushChunk h chunk = .ok c' ↔
      h.index < h.count ∧ (∀ t ∈ c.total, t = h.count) ∧
        c' = { c with total := some h.count, chunks := c.chunks.keep h.index chunk } := by
  have hbound : (h.count = 0 ∨ h.count.toNat ≤ h.index.toNat) ↔ ¬ h.index < h.count := by
    rw [UInt16.lt_iff_toNat_lt, Nat.not_lt, or_iff_right_iff_imp]
    rintro hzero
    exact hzero ▸ Nat.zero_le _
  have hany : c.total.any (· ≠ h.count) = true ↔ ¬ ∀ t ∈ c.total, t = h.count := by
    cases c.total <;> simp
  unfold pushChunk
  by_cases hindex : h.index < h.count
  · rw [if_neg fun hbad => hbound.1 hbad hindex]
    by_cases htotal : ∀ t ∈ c.total, t = h.count
    · rw [if_neg fun hbad => hany.1 hbad htotal]
      exact ⟨fun heq => ⟨hindex, htotal, (Except.ok.inj heq).symm⟩, fun heq => congrArg _ heq.2.2.symm⟩
    · rw [if_pos (hany.2 htotal)]
      exact ⟨nofun, fun heq => absurd heq.2.1 htotal⟩
  · rw [if_pos (hbound.2 hindex)]
    exact ⟨nofun, fun heq => absurd heq.1 hindex⟩

theorem push_eq_ok : c.push f = .ok c' ↔ Takes c f c' := by
  constructor
  · intro h
    unfold push at h
    split at h
    · cases h
    · next first rest =>
      split at h
      · next hfirst =>
        obtain ⟨htotal, hsame, rfl⟩ := (pushSingle_eq_ok hfirst).1 (by rw [push, if_pos hfirst]; exact h)
        exact .whole rfl hfirst htotal hsame
      · next hfirst =>
        split at h
        · cases h
        · next hsingle =>
          split at h
          · cases h
          · next header chunk hdecode =>
            obtain ⟨hindex, htotal, rfl⟩ := pushChunk_eq_ok.1 h
            have hframe := FrameHeader.eq_of_decode hdecode
            obtain ⟨marker, index, count⟩ := header
            have hmarker : marker = FrameHeader.multipart :=
              (List.cons.inj hframe).1.symm.trans (Decidable.not_not.1 hfirst)
            exact .part ⟨hmarker ▸ hframe, hindex⟩ (by simpa using hsingle) htotal
  · intro h
    cases h with
    | whole hframe hfirst htotal hsame =>
      subst hframe
      exact (pushSingle_eq_ok hfirst).2 ⟨htotal, hsame, rfl⟩
    | @part index count chunk hframe hsingle htotal =>
      obtain ⟨rfl, hindex⟩ := hframe
      have hpush := push_of_decode rfl hsingle
        (FrameHeader.decode_encode ⟨FrameHeader.multipart, index, count⟩ chunk)
      exact hpush.trans (pushChunk_eq_ok.2 ⟨hindex, htotal, rfl⟩)

/-- Whatever is wrong with a frame, it is the frame that is invalid. -/
theorem push_eq_error {e : Error} (h : c.push f = .error e) : e = .invalidFrame := by
  unfold push pushSingle pushChunk at h
  repeat' split at h
  all_goals first | exact (Except.error.inj h).symm | cases h

/-! ### Many frames -/

/-- Frames that agree are taken in either order. -/
theorem Takes.swap (hagree : Frame.Agree [f, g]) (hf : Takes c f c₁) (hg : Takes c₁ g c₂) :
    ∃ c₁', Takes c g c₁' ∧ Takes c₁' f c₂ := by
  by_cases hfg : f = g
  · subst hfg
    exact ⟨c₁, hf, hg⟩
  cases hf with
  | whole hframe hfirst htotal hsame =>
    cases hg with
    | whole _ _ _ hsame' => exact absurd (hsame' f rfl) hfg
    | part _ hsingle _ => cases hsingle
  | @part index count chunk hframe hsingle htotal =>
    cases hg with
    | whole _ _ htotal' _ => cases htotal'
    | @part index' count' chunk' hframe' _ htotal' =>
      obtain rfl : count = count' := htotal' count rfl
      have hindex : index ≠ index' := by
        rintro rfl
        have hchunk : chunk = chunk' :=
          hagree f (by simp) g (by simp) index count chunk chunk' hframe hframe'
        exact hfg (hframe.1.trans (hchunk ▸ hframe'.1.symm))
      refine ⟨_, .part hframe' hsingle htotal, ?_⟩
      dsimp only
      rw [Table.keep_comm hindex]
      exact .part hframe hsingle htotal'

theorem push_push (hagree : Frame.Agree [f, g]) :
    (c.push f >>= fun c₁ => c₁.push g) = c.push g >>= fun c₁ => c₁.push f := by
  have hagree' : Frame.Agree [g, f] := hagree.subset (by simp)
  have hforth {f g : Bytes} (hagree : Frame.Agree [f, g]) {c₂ : Collector}
      (h : (c.push f >>= fun c₁ => c₁.push g) = .ok c₂) :
      (c.push g >>= fun c₁ => c₁.push f) = .ok c₂ := by
    obtain ⟨c₁, hf, hg⟩ := bind_eq_ok.1 h
    obtain ⟨c₁', hg', hf'⟩ := (push_eq_ok.1 hf).swap hagree (push_eq_ok.1 hg)
    exact bind_eq_ok.2 ⟨c₁', push_eq_ok.2 hg', push_eq_ok.2 hf'⟩
  have hinvalid {f g : Bytes} {e : Error} (h : (c.push f >>= fun c₁ => c₁.push g) = .error e) :
      e = .invalidFrame := by
    rcases bind_eq_error.1 h with h | ⟨_, -, h⟩ <;> exact push_eq_error h
  cases h : c.push f >>= fun c₁ => c₁.push g with
  | ok c₂ => exact (hforth hagree h).symm
  | error e =>
    cases h' : c.push g >>= fun c₁ => c₁.push f with
    | ok c₂ => exact (h.symm.trans (hforth hagree' h'))
    | error e' => rw [hinvalid h, hinvalid h']

/-- Frames that agree may be pushed in any order. -/
theorem foldlM_push_perm {frames seq : List Bytes} (h : frames.Perm seq) (hagree : Frame.Agree frames)
    (c : Collector) : frames.foldlM push c = seq.foldlM push c := by
  induction h generalizing c with
  | nil => rfl
  | cons f _ ih =>
    rw [List.foldlM_cons, List.foldlM_cons]
    exact bind_congr fun c' => ih (hagree.subset fun g hg => List.mem_cons_of_mem _ hg) c'
  | swap f g rest =>
    have hpair : Frame.Agree [g, f] := hagree.subset (by simp)
    simp only [List.foldlM_cons, ← bind_assoc]
    rw [push_push hpair]
  | trans h _ ih ih' => rw [ih hagree c, ih' (hagree.subset fun f hf => h.mem_iff.2 hf) c]

end Collector

/-- Frames that agree on the chunk of each index and count give the same in every order: the
same payload, or the same error. -/
theorem Frame.decode_perm {frames seq : List Bytes} (h : frames.Perm seq) (hagree : Agree frames) :
    decode frames = decode seq := by
  rw [decode, decode, Collector.foldlM_push_perm h hagree]

/-- A payload that came in one frame, among the two frames of another: it is refused before
and after them. -/
theorem Frame.decode_perm_mixed :
    decode [[83, 1], [0, 0, 0, 2, 0, 9], [0, 1, 0, 2, 0, 7]] = .error .invalidFrame ∧
      decode [[0, 1, 0, 2, 0, 7], [0, 0, 0, 2, 0, 9], [83, 1]] = .error .invalidFrame := by
  have hsame : decode [[83, 1], [0, 0, 0, 2, 0, 9], [0, 1, 0, 2, 0, 7]] =
      decode [[0, 1, 0, 2, 0, 7], [0, 0, 0, 2, 0, 9], [83, 1]] :=
    decode_perm (by decide) (agree_of_headers (by decide))
  have hfirst : decode [[83, 1], [0, 0, 0, 2, 0, 9], [0, 1, 0, 2, 0, 7]] = .error .invalidFrame := rfl
  exact ⟨hfirst, hsame.symm.trans hfirst⟩

end ColdSigner.Wire
