import ColdSigner.Proofs.Session.Authorization
import ColdSigner.Proofs.Wire.AnyOrder
import ColdSigner.Proofs.Wire.Conflicts

/-! Scanning frame by frame.

A session takes the frames of a payload one at a time and has to decide after each of
them whether to wait, to go on or to fail. `Scanned` says what it decides, in terms of
all the frames at once; it holds when the scan starts, and a frame leads from the frames
before to those with it. -/
namespace ColdSigner

/-! ### The collector -/

namespace Wire.Collector

/-- No frame announces a payload without frames. -/
theorem total_ne_zero {frames : List Bytes} {c c' : Collector} (h : c.total ≠ some 0)
    (hframes : frames.foldlM push c = .ok c') : c'.total ≠ some 0 := by
  induction frames generalizing c with
  | nil =>
    obtain rfl := Except.ok.inj hframes
    exact h
  | cons f rest ih =>
    rw [List.foldlM_cons] at hframes
    obtain ⟨c₁, hpush, hrest⟩ := bind_eq_ok.1 hframes
    refine ih ?_ hrest
    cases push_eq_ok.1 hpush with
    | whole => exact h
    | @part index count chunk hframe =>
      intro hzero
      obtain rfl : count = 0 := Option.some.inj hzero
      exact UInt16.not_lt_zero hframe.2

end Wire.Collector

/-! ### The log of a scan -/

namespace Scans

theorem ne_nil {log : List Moment} {frames : List Bytes} (h : Scans log frames) : log ≠ [] := by
  cases h <;> simp

theorem last {log : List Moment} {m : Moment} {frames : List Bytes} (h : Scans (log ++ [m]) frames) :
    (m.action = .startScan ∧ frames = []) ∨
      ∃ before frame, Scans log before ∧ m.action = .scanFrame frame ∧ frames = before ++ [frame] := by
  generalize hlog : log ++ [m] = whole at h
  cases h with
  | start action =>
    obtain ⟨-, hm⟩ := List.append_inj' hlog rfl
    obtain rfl := List.singleton_inj.1 hm
    exact .inl ⟨action, rfl⟩
  | frame scanned action =>
    obtain ⟨rfl, hm⟩ := List.append_inj' hlog rfl
    obtain rfl := List.singleton_inj.1 hm
    exact .inr ⟨_, _, scanned, action, rfl⟩

end Scans

/-! ### The session -/

/-- What frames have led a session to, that started to scan with none of them. -/
inductive Scanned (frames : List Bytes) (c : Wire.Collector) : Phase → Prop where
  | waiting (collected : frames.foldlM Wire.Collector.push {} = .ok c)
      (incomplete : c.isComplete = false) : Scanned frames c .awaitingScan
  | complete {payload : Bytes} (whole : Wire.Frame.decode frames = .ok payload) :
      Scanned frames c (.decoding payload)
  | failed {e : Wire.Error} {review : Option Review} (refused : Wire.Frame.decode frames = .error e) :
      Scanned frames c (.failed (.transport e) review)

/-- A session that waits has not got them all. -/
theorem Scanned.decode_of_waiting {frames : List Bytes} {c : Wire.Collector}
    (h : Scanned frames c .awaitingScan) : Wire.Frame.decode frames = .error .incompleteSequence := by
  cases h with
  | waiting collected incomplete =>
    rw [Wire.Frame.decode, collected]
    have hnone : ({} : Wire.Collector).total ≠ some 0 := (Option.some_ne_none 0).symm
    have htotal := Wire.Collector.total_ne_zero hnone collected
    exact Wire.Collector.finish_of_incomplete htotal incomplete

/-- One more frame. -/
theorem Scanned.scanFrame {frames : List Bytes} {s : Session} (scanning : s.phase = .awaitingScan)
    (h : Scanned frames s.collector s.phase) (frame : Bytes) :
    Scanned (frames ++ [frame]) (s.scanFrame frame).collector (s.scanFrame frame).phase := by
  rw [scanning] at h
  obtain ⟨collected, -⟩ := h
  have hmore : (frames ++ [frame]).foldlM Wire.Collector.push {} = s.collector.push frame := by
    rw [List.foldlM_append, collected]
    show s.collector.push frame >>= pure = _
    exact bind_pure _
  have hdecode {c : Except Wire.Error Wire.Collector} (hpush : s.collector.push frame = c) :
      Wire.Frame.decode (frames ++ [frame]) = c >>= Wire.Collector.finish := by
    rw [Wire.Frame.decode, hmore, hpush]
  unfold Session.scanFrame
  split
  · next hpush => exact .failed (hdecode hpush)
  · next c hpush =>
    dsimp only
    split
    · split
      · next hfinish => exact .complete ((hdecode hpush).trans hfinish)
      · next hfinish => exact .failed ((hdecode hpush).trans hfinish)
    · next incomplete =>
      show Scanned _ c s.phase
      rw [scanning]
      exact .waiting (hmore.trans hpush) (Bool.eq_false_iff.2 incomplete)

theorem History.scanned {others : Device → Device → Prop} {settings : SessionSettings}
    {log : List Moment} {s : Session} {d : Device} (h : History others settings log s d)
    {frames : List Bytes} (hscans : Scans log frames) : Scanned frames s.collector s.phase := by
  refine h.invariant (P := fun log s => ∀ frames, Scans log frames → Scanned frames s.collector s.phase)
    ?_ ?_ _ hscans
  · exact fun frames hscans => absurd rfl hscans.ne_nil
  · intro log s t d d' random a _ ih step frames hscans
    -- of the steps with such an action, one starts the scan or scans, and none leaves it
    rcases hscans.last with ⟨rfl, rfl⟩ | ⟨before, frame, hbefore, rfl, rfl⟩
    · cases step with
      | startScan => exact .waiting rfl rfl
      | leave leaving => simp at leaving
    · cases step with
      | scanFrame scanning => exact Scanned.scanFrame scanning (ih before hbefore) frame
      | leave leaving => simp at leaving

/-- A session that scans, frame by frame, comes to what all the frames give at once. As long as
it waits they are too few, and it takes any other frame; it goes on with the payload that
they give, or fails with the error that they give. -/
theorem scan_agrees_with_decode (others : Device → Device → Prop) (settings : SessionSettings)
    (log : List Moment) (s : Session) (d : Device) (h : History others settings log s d)
    (frames : List Bytes) (hscans : Scans log frames) :
    (s.phase = .awaitingScan ∧ Wire.Frame.decode frames = .error .incompleteSequence ∧
        ∀ random frame, ∃ s', s.update d random (.scanFrame frame) = .ok (s', d)) ∨
      (∃ payload, s.phase = .decoding payload ∧ Wire.Frame.decode frames = .ok payload) ∨
        ∃ e review, s.phase = .failed (.transport e) review ∧ Wire.Frame.decode frames = .error e := by
  have hscanned := h.scanned hscans
  cases hphase : s.phase <;> rw [hphase] at hscanned
  case awaitingScan =>
    refine .inl ⟨rfl, hscanned.decode_of_waiting, fun random frame => ?_⟩
    have haccepted : s.tag.accepts (Action.scanFrame frame).kind = true := by
      rw [Session.tag, hphase]
      rfl
    exact ⟨_, (@Session.Step.scanFrame s.cleared d random frame hphase).update_eq haccepted⟩
  case decoding payload =>
    cases hscanned with
    | complete whole => exact .inr (.inl ⟨payload, rfl, whole⟩)
  case failed fault review =>
    cases hscanned with
    | failed refused => exact .inr (.inr ⟨_, review, rfl, refused⟩)
  all_goals cases hscanned

/-- A part of a payload is scanned, and then a whole payload, which is refused. -/
theorem mixed_scan_agrees_with_decode : ∃ (d : Device) (log : List Moment) (s : Session)
    (review : Option Review), History (fun _ _ => True) {} log s d ∧
      Scans log [[0, 0, 0, 2, 0, 9], [83, 1]] ∧
        s.phase = .failed (.transport .invalidFrame) review ∧
          Wire.Frame.decode [[0, 0, 0, 2, 0, 9], [83, 1]] = .error .invalidFrame := by
  let d : Device := { vault := { authenticator := ⟨fun _ => false⟩ } }
  let random : FixedBytes 32 := .fit 32 []
  have scanning := (@History.opened (fun _ _ => True) {} d).acted
    ((@Session.Step.startScan (Session.cleared {}) d random rfl).update_eq rfl)
  have waiting := scanning.acted
    ((@Session.Step.scanFrame (Session.cleared _) d random [0, 0, 0, 2, 0, 9] rfl).update_eq rfl)
  have failed := waiting.acted
    ((@Session.Step.scanFrame (Session.cleared _) d random [83, 1] rfl).update_eq rfl)
  have hscans : Scans ([] ++ [⟨d, .startScan⟩] ++ [⟨d, .scanFrame [0, 0, 0, 2, 0, 9]⟩] ++
      [⟨d, .scanFrame [83, 1]⟩]) ([] ++ [[0, 0, 0, 2, 0, 9]] ++ [[83, 1]]) :=
    .frame (.frame (.start rfl) rfl) rfl
  rcases scan_agrees_with_decode _ _ _ _ _ failed _ hscans with
    ⟨hwaiting, -⟩ | ⟨payload, hpayload, -⟩ | ⟨e, review, hfailed, hdecode⟩
  · cases hwaiting
  · cases hpayload
  · obtain ⟨hfault, rfl⟩ := Phase.failed.inj hfailed
    obtain rfl := SessionFault.transport.inj hfault
    exact ⟨d, _, _, _, failed, hscans, rfl, hdecode⟩

end ColdSigner
