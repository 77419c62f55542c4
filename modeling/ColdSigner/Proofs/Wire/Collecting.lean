import ColdSigner.Proofs.Wire.AnyOrder
import ColdSigner.Proofs.Wire.Conflicts
import Mathlib.Data.Finset.Card

/-! What a collector holds.

A collector can be pushed anything, and cleared at any time. `receive` pushes a frame in
place, one write after the other: the number of frames is noted before a chunk is kept,
and what is written before a frame is refused stays written. `receive_eq` says that
nothing is, since all checks come first. What a collector holds is then known from the
frames that it accepted since it was last cleared. `Holds` says what, and an accepted
frame leads from the frames before it to those with it. -/
namespace ColdSigner.Wire

/-! ### Frames -/

namespace Frame

/-- Whether a frame is a payload as a whole. -/
def isWhole : Bytes → Bool
  | [] => false
  | first :: _ => first != FrameHeader.multipart

/-- The index of a part, from its header. -/
def index? (frame : Bytes) : Option UInt16 :=
  match FrameHeader.decode frame with
  | .ok (header, _) => if header.marker = FrameHeader.multipart then some header.index else none
  | .error _ => none

variable {index count : UInt16} {chunk frame : Bytes}

theorem IsPart.index?_eq (h : IsPart index count chunk frame) : index? frame = some index := by
  rw [index?, h.1, FrameHeader.decode_encode]
  exact if_pos rfl

theorem IsPart.body_eq (h : IsPart index count chunk frame) : body frame = chunk := by
  rw [h.1, body_append]

theorem IsPart.isWhole_eq (h : IsPart index count chunk frame) : isWhole frame = false := by
  rw [h.1]
  rfl

/-- A payload as a whole has no index. -/
theorem index?_of_isWhole (h : isWhole frame = true) : index? frame = none := by
  unfold index?
  split
  · next header chunk hdecode =>
    rw [FrameHeader.eq_of_decode hdecode] at h
    exact if_neg (bne_iff_ne.1 h)
  · rfl

end Frame

namespace Collector

/-! ### Frames taken in place -/

/-- A program that changes a collector in place, and may fail on the way. -/
abbrev InPlace := ExceptT Error (StateM Collector)

namespace InPlace

def receiveWhole (frame : Bytes) : InPlace Progress := do
  let c ← get
  if c.total.isSome then throw .invalidFrame
  else
    match c.single with
    | none =>
      modify fun c => { c with single := some frame }
      return (← get).progress
    | some s => if s = frame then return c.progress else throw .invalidFrame

/-- The number of frames is noted first, then the chunk is kept. -/
def receivePart (h : FrameHeader) (chunk : Bytes) : InPlace Progress := do
  if h.count = 0 ∨ h.count.toNat ≤ h.index.toNat then throw .invalidFrame
  else
    let c ← get
    if c.total.any (· ≠ h.count) then throw .invalidFrame
    else
      modify fun c => { c with total := some h.count }
      modify fun c => { c with chunks := c.chunks.keep h.index chunk }
      return (← get).progress

/-- One frame, with the progress after it. -/
def receive (frame : Bytes) : InPlace Progress := do
  match frame with
  | [] => throw .invalidFrame
  | first :: _ =>
    if first ≠ FrameHeader.multipart then receiveWhole frame
    else
      let c ← get
      if c.single.isSome then throw .invalidFrame
      else
        match FrameHeader.decode frame with
        | .error _ => throw .invalidFrame
        | .ok (h, chunk) => receivePart h chunk

/-- What becomes of a collector that is replaced as a whole, or left as it is. -/
def settle (c : Collector) : Except Error Collector → Except Error Progress × Collector
  | .ok c' => (.ok c'.progress, c')
  | .error e => (.error e, c)

theorem get_bind {α : Type} (c : Collector) (f : Collector → InPlace α) : (get >>= f) c = f c c := rfl

theorem receiveWhole_eq (c : Collector) (frame : Bytes) :
    receiveWhole frame c = settle c (c.pushSingle frame) := by
  rw [receiveWhole, pushSingle, get_bind]
  split
  · rfl
  · cases c.single with
    | none => rfl
    | some s =>
      dsimp only
      split <;> rfl

theorem receivePart_eq (c : Collector) (h : FrameHeader) (chunk : Bytes) :
    receivePart h chunk c = settle c (c.pushChunk h chunk) := by
  rw [receivePart, pushChunk]
  split
  · rfl
  · rw [get_bind]
    split <;> rfl

theorem receive_eq (c : Collector) (frame : Bytes) : receive frame c = settle c (c.push frame) := by
  cases frame with
  | nil => rfl
  | cons first rest =>
    rw [receive, push]
    split
    · exact receiveWhole_eq c _
    · rw [get_bind]
      split
      · rfl
      · cases FrameHeader.decode (first :: rest) with
        | error => rfl
        | ok part => exact receivePart_eq c ..

/-- A frame that is refused leaves the collector as it is. -/
theorem eq_of_refused {c c' : Collector} {frame : Bytes} {e : Error}
    (h : receive frame c = (.error e, c')) : c' = c := by
  rw [receive_eq] at h
  cases hpush : c.push frame with
  | ok => rw [hpush] at h; cases h
  | error => rw [hpush] at h; exact (Prod.mk.inj h).2.symm

end InPlace

/-! ### Many frames -/

/-- What may be done with a collector. -/
inductive Event where
  | push (frame : Bytes)
  | clear

/-- A collector, with the frames that it accepted since it was last cleared. -/
structure Reception where
  collector : Collector := {}
  accepted : List Bytes := []

namespace Reception

def next (r : Reception) : Event → Reception
  | .push frame =>
    match InPlace.receive frame r.collector with
    | (.ok _, c) => ⟨c, r.accepted ++ [frame]⟩
    | (.error _, c) => ⟨c, r.accepted⟩
  | .clear => {}

/-- A new collector after these events. -/
def after (events : List Event) : Reception := events.foldl next {}

theorem next_push (r : Reception) (frame : Bytes) :
    r.next (.push frame) =
      match r.collector.push frame with
      | .ok c => ⟨c, r.accepted ++ [frame]⟩
      | .error _ => r := by
  rw [next, InPlace.receive_eq]
  cases r.collector.push frame <;> rfl

end Reception

/-- What a collector holds that has accepted these frames. -/
inductive Holds : List Bytes → Collector → Prop where
  | nothing : Holds [] {}
  /-- One payload, of which all frames are copies. -/
  | whole {payload : Bytes} {accepted : List Bytes} (hne : accepted ≠ [])
      (hwhole : Frame.isWhole payload = true) (same : ∀ f ∈ accepted, f = payload) :
      Holds accepted { single := some payload }
  /-- The parts of one payload, of each index the first. -/
  | parts {count : UInt16} {chunks : Table UInt16 Bytes} {accepted : List Bytes} (hne : accepted ≠ [])
      (hparts : ∀ f ∈ accepted, ∃ index chunk, Frame.IsPart index count chunk f)
      (ordered : chunks.Ordered)
      (first : ∀ i, chunks.find? i = (accepted.find? fun f => Frame.index? f = some i).map Frame.body) :
      Holds accepted { total := some count, chunks }

namespace Holds

variable {accepted : List Bytes} {c c' : Collector} {frame : Bytes}

/-- A part is the first of its index, or is dropped. -/
theorem first_keep {chunks : Table UInt16 Bytes} {index count : UInt16} {chunk : Bytes}
    (hframe : Frame.IsPart index count chunk frame)
    (first : ∀ i, chunks.find? i = (accepted.find? fun f => Frame.index? f = some i).map Frame.body)
    (i : UInt16) :
    (chunks.keep index chunk).find? i =
      ((accepted ++ [frame]).find? fun f => Frame.index? f = some i).map Frame.body := by
  rw [List.find?_append]
  by_cases hi : index = i
  · subst hi
    have hlast : [frame].find? (fun f => Frame.index? f = some index) = some frame :=
      List.find?_cons_of_pos (by simpa using hframe.index?_eq)
    rw [Table.find?_keep_self, first, hlast]
    cases accepted.find? fun f => Frame.index? f = some index with
    | none => exact congrArg some hframe.body_eq.symm
    | some f => rfl
  · have hlast : [frame].find? (fun f => Frame.index? f = some i) = none := by
      rw [List.find?_cons_of_neg (by simpa [hframe.index?_eq] using hi), List.find?_nil]
    rw [Table.find?_keep_of_ne hi, first, hlast, Option.or_none]

/-- One more frame. -/
theorem push (h : Holds accepted c) (taken : Takes c frame c') : Holds (accepted ++ [frame]) c' := by
  have hne : accepted ++ [frame] ≠ [] :=
    List.append_ne_nil_of_right_ne_nil accepted (List.cons_ne_nil frame [])
  cases taken with
  | whole hframe hfirst htotal hsame =>
    have hwhole : Frame.isWhole frame = true := by
      rw [hframe]
      exact bne_iff_ne.2 hfirst
    cases h with
    | nothing => exact .whole hne hwhole (by simp)
    | @whole payload _ _ _ same =>
      obtain rfl : payload = frame := hsame payload rfl
      refine .whole hne hwhole fun f hf => ?_
      rcases List.mem_append.1 hf with hf | hf
      · exact same f hf
      · exact List.mem_singleton.1 hf
    | parts => cases htotal
  | @part index count chunk hframe hsingle htotal =>
    cases h with
    | nothing =>
      refine .parts hne ?_ (Table.ordered_empty.keep ..) (first_keep hframe fun i => rfl)
      intro f hf
      obtain rfl := List.mem_singleton.1 hf
      exact ⟨index, chunk, hframe⟩
    | whole => cases hsingle
    | @parts count' chunks _ _ hparts ordered first =>
      obtain rfl : count' = count := htotal count' rfl
      refine .parts hne ?_ (ordered.keep ..) (first_keep hframe first)
      intro f hf
      rcases List.mem_append.1 hf with hf | hf
      · exact hparts f hf
      · obtain rfl := List.mem_singleton.1 hf
        exact ⟨index, chunk, hframe⟩

theorem next {r : Reception} (h : Holds r.accepted r.collector) (event : Event) :
    Holds (r.next event).accepted (r.next event).collector := by
  cases event with
  | clear => exact .nothing
  | push frame =>
    rw [Reception.next_push]
    cases hpush : r.collector.push frame with
    | ok c => exact h.push (push_eq_ok.1 hpush)
    | error => exact h

theorem after (events : List Event) :
    Holds (Reception.after events).accepted (Reception.after events).collector := by
  have hrun (r : Reception) (h : Holds r.accepted r.collector) :
      Holds (events.foldl Reception.next r).accepted (events.foldl Reception.next r).collector := by
    induction events generalizing r with
    | nil => exact h
    | cons event rest ih => exact ih _ (h.next event)
  exact hrun {} .nothing

/-- There are as many chunks as indices. -/
theorem size_eq {chunks : Table UInt16 Bytes} (ordered : chunks.Ordered)
    (first : ∀ i, chunks.find? i = (accepted.find? fun f => Frame.index? f = some i).map Frame.body) :
    chunks.size = (accepted.filterMap Frame.index?).toFinset.card := by
  have hkeys : chunks.keys.toFinset = (accepted.filterMap Frame.index?).toFinset := by
    ext i
    rw [List.mem_toFinset, List.mem_toFinset, ordered.mem_keys, first, Option.isSome_map,
      List.find?_isSome, List.mem_filterMap]
    simp only [decide_eq_true_eq]
  rw [← hkeys, List.toFinset_card_of_nodup ordered.nodup_keys, Table.keys, List.length_map, Table.size]

/-- There are no more indices than the headers announce. -/
theorem card_indices_le {count : UInt16}
    (hparts : ∀ f ∈ accepted, ∃ index chunk, Frame.IsPart index count chunk f) :
    (accepted.filterMap Frame.index?).toFinset.card ≤ count.toNat := by
  have hlt (i : UInt16) (hi : i ∈ (accepted.filterMap Frame.index?).toFinset) : i.toNat < count.toNat := by
    obtain ⟨f, hf, hindex⟩ := List.mem_filterMap.1 (List.mem_toFinset.1 hi)
    obtain ⟨index, chunk, hpart⟩ := hparts f hf
    obtain rfl : index = i := Option.some.inj (hpart.index?_eq.symm.trans hindex)
    exact UInt16.lt_iff_toNat_lt.1 hpart.2
  calc
    _ ≤ (Finset.range count.toNat).card :=
      Finset.card_le_card_of_injOn UInt16.toNat (fun i hi => by simpa using hlt i (by simpa using hi))
        fun i _ j _ hij => UInt16.toNat_inj.1 hij
    _ = count.toNat := Finset.card_range _

theorem total_ne_zero (h : Holds accepted c) : c.total ≠ some 0 := by
  cases h with
  | nothing | whole => nofun
  | parts hne hparts =>
    obtain ⟨f, hf⟩ := List.exists_mem_of_ne_nil _ hne
    obtain ⟨index, chunk, hpart⟩ := hparts f hf
    intro hzero
    rw [Option.some.inj hzero] at hpart
    exact UInt16.not_lt_zero hpart.2

end Holds

theorem checked_ne_incomplete (data : Bytes) : checked data ≠ .error .incompleteSequence := by
  unfold checked
  dsimp only
  split
  · nofun
  · split <;> nofun

/-- A complete collector gives its payload out, or finds it damaged. -/
theorem finish_of_complete {c : Collector} (h : c.isComplete = true) :
    c.finish ≠ .error .incompleteSequence := by
  unfold finish
  unfold isComplete progress at h
  split
  · nofun
  · next hsingle htotal =>
    rw [hsingle, htotal] at h
    cases h
  · next total hsingle htotal =>
    rw [hsingle, htotal] at h
    have hsize : c.chunks.size = total.toNat := by simpa using (Bool.and_eq_true_iff.1 h).2
    rw [if_neg (not_not_intro hsize)]
    exact checked_ne_incomplete _

end Collector

/-- A collector is pushed any frames and cleared at any time. A frame that is refused leaves
it as it is. It has received as many parts as there are indices among the frames that it
accepted since it was last cleared, or one payload as a whole, and no more than it waits
for. It keeps the first part of each index, and the payload. These never come together, and
frames are missing exactly as long as it is not complete. -/
theorem collector_holds_what_it_accepted (events : List Collector.Event) (c : Collector)
    (accepted : List Bytes) (h : Collector.Reception.after events = ⟨c, accepted⟩) :
    (∀ frame e c', Collector.InPlace.receive frame c = (.error e, c') → c' = c) ∧
      c.progress.received =
        (if ∃ f ∈ accepted, Frame.isWhole f then 1
          else (accepted.filterMap Frame.index?).toFinset.card) ∧
      c.progress.received ≤ c.progress.total ∧
      (∀ i, c.chunks.find? i = (accepted.find? fun f => Frame.index? f = some i).map Frame.body) ∧
      c.single = accepted.find? Frame.isWhole ∧
      (c.single = none ∨ c.total = none ∧ c.chunks.size = 0) ∧
      ((∀ f ∈ accepted, Frame.isWhole f) ∨ ∀ f ∈ accepted, (Frame.index? f).isSome) ∧
      (c.finish = .error .incompleteSequence ↔ c.isComplete = false) := by
  have holds := Collector.Holds.after events
  rw [h] at holds
  have hfinish : c.finish = .error .incompleteSequence ↔ c.isComplete = false :=
    ⟨fun hmissing => Bool.eq_false_iff.2 fun hcomplete => Collector.finish_of_complete hcomplete hmissing,
      Collector.finish_of_incomplete holds.total_ne_zero⟩
  refine ⟨fun _ _ _ => Collector.InPlace.eq_of_refused, ?_⟩
  cases holds with
  | nothing => exact ⟨rfl, Nat.le_refl 0, fun _ => rfl, rfl, .inl rfl, .inl nofun, hfinish⟩
  | @whole payload _ hne hwhole same =>
    have hall (f : Bytes) (hf : f ∈ accepted) : Frame.isWhole f = true := same f hf ▸ hwhole
    obtain ⟨first, rest, rfl⟩ := List.exists_cons_of_ne_nil hne
    have hfirst := List.mem_cons_self (a := first) (l := rest)
    refine ⟨(if_pos ⟨first, hfirst, hall first hfirst⟩).symm, Nat.le_refl 1, fun i => ?_, ?_,
      .inr ⟨rfl, rfl⟩, .inl hall, hfinish⟩
    · have hnone : (first :: rest).find? (fun f => Frame.index? f = some i) = none := by
        refine List.find?_eq_none.2 fun f hf => ?_
        simp [Frame.index?_of_isWhole (hall f hf)]
      rw [hnone]
      rfl
    · rw [List.find?_cons_of_pos (hall first hfirst), same first hfirst]
  | @parts count chunks _ hne hparts ordered first =>
    have hpart (f : Bytes) (hf : f ∈ accepted) :
        Frame.isWhole f = false ∧ (Frame.index? f).isSome = true := by
      obtain ⟨index, chunk, hpart⟩ := hparts f hf
      exact ⟨hpart.isWhole_eq, by rw [hpart.index?_eq]; rfl⟩
    have hsize := Collector.Holds.size_eq ordered first
    have hnone : ¬ ∃ f ∈ accepted, Frame.isWhole f = true := by
      intro ⟨f, hf, hwhole⟩
      rw [(hpart f hf).1] at hwhole
      cases hwhole
    refine ⟨?_, ?_, first, ?_, .inl rfl, .inr fun f hf => (hpart f hf).2, hfinish⟩
    · rw [if_neg hnone]
      exact hsize
    · show chunks.size ≤ count.toNat
      rw [hsize]
      exact Collector.Holds.card_indices_le hparts
    · refine (List.find?_eq_none.2 fun f hf => ?_).symm
      rw [(hpart f hf).1]
      exact Bool.false_ne_true

/-- Two chunks are pushed for one index, and then a chunk of another payload, all after a
payload that was cleared. The first chunk is kept, and a payload is refused. -/
theorem collector_holds_first_part : ∃ (c : Collector) (accepted : List Bytes),
    Collector.Reception.after [.push [83, 1], .clear, .push [0, 1, 0, 2, 0, 7],
        .push [0, 1, 0, 2, 0, 9], .push [0, 0, 0, 3, 0, 5]] = ⟨c, accepted⟩ ∧
      accepted = [[0, 1, 0, 2, 0, 7], [0, 1, 0, 2, 0, 9]] ∧ c.progress.received = 1 ∧
      c.chunks.find? 1 = some [7] ∧ c.finish = .error .incompleteSequence ∧
      ∃ c', Collector.InPlace.receive [83, 1] c = (.error .invalidFrame, c') ∧ c' = c := by
  have holds := collector_holds_what_it_accepted [.push [83, 1], .clear, .push [0, 1, 0, 2, 0, 7],
    .push [0, 1, 0, 2, 0, 9], .push [0, 0, 0, 3, 0, 5]] _ _ rfl
  obtain ⟨hrefused, hreceived, -, hfirst, -, -, -, hfinish⟩ := holds
  exact ⟨_, _, rfl, rfl, hreceived, hfirst 1, hfinish.2 rfl, _, rfl, hrefused [83, 1] .invalidFrame _ rfl⟩

end ColdSigner.Wire
