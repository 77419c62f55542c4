import ColdSigner.Bytes.Lemmas
import ColdSigner.Review.Failure

/-! What reading takes from a payload.

A read that succeeds leads from one cursor to another of the same region: it takes
some bytes off the front of what is left and moves the offset by their number.
`Cursor.Consumes` says which bytes. Every primitive read is described by it, in
both directions, so that nothing later opens a cursor. -/
namespace ColdSigner

/-- A step of a computation that may fail comes before the rest of it. -/
@[simp] theorem bind_eq_ok {ε α β : Type} {x : Except ε α} {f : α → Except ε β} {b : β} :
    x >>= f = .ok b ↔ ∃ a, x = .ok a ∧ f a = .ok b := by
  cases x with
  | error e => simp [bind, Except.bind]
  | ok a => simp [bind, Except.bind]

/-- A computation fails in its first step or, when this succeeds, after it. -/
theorem bind_eq_error {ε α β : Type} {x : Except ε α} {f : α → Except ε β} {e : ε} :
    x >>= f = .error e ↔ x = .error e ∨ ∃ a, x = .ok a ∧ f a = .error e := by
  cases x with
  | error e => simp [bind, Except.bind]
  | ok a => simp [bind, Except.bind]

@[simp] theorem pure_eq_ok {ε α : Type} {a b : α} : (pure a : Except ε α) = .ok b ↔ a = b := by
  simp [pure, Except.pure]

@[simp] theorem mapError_eq_ok {ε ε' α : Type} {x : Except ε α} {f : ε → ε'} {a : α} :
    x.mapError f = .ok a ↔ x = .ok a := by
  cases x with
  | error e => exact iff_of_false nofun nofun
  | ok b =>
    show Except.ok b = .ok a ↔ _
    rw [Except.ok.injEq, Except.ok.injEq]

@[simp] theorem map_eq_ok {ε α β : Type} {x : Except ε α} {f : α → β} {b : β} :
    x.map f = .ok b ↔ ∃ a, x = .ok a ∧ f a = b := by
  cases x <;> simp [Except.map]

namespace Cursor

@[ext] theorem ext {c d : Cursor} (hoffset : c.offset = d.offset) (hrest : c.rest = d.rest) :
    c = d := by
  obtain ⟨offset, stop, rest, bounded⟩ := c
  obtain ⟨offset', stop', rest', bounded'⟩ := d
  simp only at hoffset hrest
  subst hoffset hrest bounded bounded'
  rfl

/-- Reading `b` leads from `c` to `d`. -/
structure Consumes (c : Cursor) (b : Bytes) (d : Cursor) : Prop where
  rest : c.rest = b ++ d.rest
  offset : d.offset = c.offset + b.length

namespace Consumes

variable {c d e : Cursor} {a b : Bytes}

theorem refl (c : Cursor) : c.Consumes [] c := ⟨rfl, rfl⟩

theorem trans (h : c.Consumes a d) (h' : d.Consumes b e) : c.Consumes (a ++ b) e := by
  refine ⟨?_, ?_⟩
  · rw [h.rest, h'.rest, List.append_assoc]
  · rw [h'.offset, h.offset, List.length_append, Nat.add_assoc]

theorem stop_eq (h : c.Consumes b d) : d.stop = c.stop := by
  have hc := c.bounded
  have hd := d.bounded
  have hl := congrArg List.length h.rest
  have ho := h.offset
  rw [List.length_append] at hl
  omega

theorem offset_le (h : c.Consumes b d) : c.offset ≤ d.offset := by
  rw [h.offset]
  exact Nat.le_add_right ..

/-- Where a read ends is known from the bytes it took. -/
theorem unique (h : c.Consumes b d) (h' : c.Consumes b e) : d = e := by
  refine Cursor.ext (h.offset.trans h'.offset.symm) ?_
  exact List.append_cancel_left (h.rest.symm.trans h'.rest)

end Consumes

theorem remaining_eq_zero {c : Cursor} : c.remaining = 0 ↔ c.rest = [] := by
  rw [c.remaining_eq, List.length_eq_zero_iff]

/-- A cursor with nothing left stands at the stop. -/
theorem offset_eq_stop {c : Cursor} (h : c.remaining = 0) : c.offset = c.stop := by
  have hb := c.bounded
  rw [c.remaining_eq] at h
  omega

theorem consumes_skip (c : Cursor) (n : Nat) (h : n ≤ c.rest.length) :
    c.Consumes (c.rest.take n) (c.skip n h) := by
  refine ⟨(List.take_append_drop n c.rest).symm, ?_⟩
  show c.offset + n = c.offset + (c.rest.take n).length
  rw [List.length_take, Nat.min_eq_left h]

theorem consumes_takeAll (c : Cursor) : c.Consumes c.rest c.takeAll.2 := by
  have hs := c.consumes_skip c.rest.length (Nat.le_refl _)
  rwa [List.take_length] at hs

theorem offset_takeAll (c : Cursor) : c.takeAll.2.offset = c.stop := by
  rw [c.consumes_takeAll.offset]
  exact c.bounded

/-- The bytes at the front can be taken. -/
theorem exists_consumes {c : Cursor} {b t : Bytes} (h : c.rest = b ++ t) :
    ∃ d, c.Consumes b d ∧ d.rest = t := by
  have hl : b.length ≤ c.rest.length := by simp [h]
  refine ⟨c.skip b.length hl, ?_, ?_⟩
  · have hs := c.consumes_skip b.length hl
    rwa [h, List.take_left] at hs
  · show c.rest.drop b.length = t
    rw [h, List.drop_left]

/-- Bytes in two parts are read one part after the other. -/
theorem Consumes.split {c e : Cursor} {a b : Bytes} (h : c.Consumes (a ++ b) e) :
    ∃ d, c.Consumes a d ∧ d.Consumes b e := by
  obtain ⟨d, hd, hrest⟩ := exists_consumes (h.rest.trans (List.append_assoc ..))
  obtain ⟨next, hnext, -⟩ := exists_consumes hrest
  obtain rfl := (hd.trans hnext).unique h
  exact ⟨d, hd, hnext⟩

/-! ### The primitive reads -/

theorem take?_eq_some {c d : Cursor} {n : Nat} {b : Bytes} :
    c.take? n = some (b, d) ↔ b.length = n ∧ c.Consumes b d := by
  unfold take?
  split
  · next hn =>
    have hl : n ≤ c.rest.length := c.remaining_eq ▸ hn
    rw [Option.some.injEq, Prod.mk.injEq]
    constructor
    · intro h
      obtain ⟨rfl, rfl⟩ := h
      exact ⟨by rw [List.length_take, Nat.min_eq_left hl], c.consumes_skip n hl⟩
    · intro h
      obtain ⟨rfl, h⟩ := h
      have hb : c.rest.take b.length = b := by rw [h.rest, List.take_left]
      have hs := c.consumes_skip b.length hl
      rw [hb] at hs
      exact ⟨hb, hs.unique h⟩
  · next hn =>
    simp only [reduceCtorEq, false_iff]
    intro h
    obtain ⟨rfl, h⟩ := h
    apply hn
    rw [c.remaining_eq, h.rest, List.length_append]
    exact Nat.le_add_right ..

@[simp] theorem take_eq_ok {c d : Cursor} {n : Nat} {b : Bytes} :
    c.take n = .ok (b, d) ↔ b.length = n ∧ c.Consumes b d := by
  rw [← take?_eq_some]
  unfold take
  split
  · next r hr => rw [hr, Except.ok.injEq, Option.some.injEq]
  · next hr => simp [hr, fail]

@[simp] theorem number_eq_ok {c d : Cursor} {n v : Nat} :
    c.number n = .ok (v, d) ↔ ∃ b : Bytes, b.length = n ∧ b.toNat = v ∧ c.Consumes b d := by
  simp only [number, bind_eq_ok, pure_eq_ok, Prod.exists, take_eq_ok, Prod.mk.injEq]
  constructor
  · intro h
    obtain ⟨b, d', ⟨hl, h⟩, hv, rfl⟩ := h
    exact ⟨b, hl, hv, h⟩
  · intro h
    obtain ⟨b, hl, hv, h⟩ := h
    exact ⟨b, d, ⟨hl, h⟩, hv, rfl⟩

theorem consumes_of_number {c d : Cursor} {n v : Nat} (h : c.number n = .ok (v, d)) :
    v < 256 ^ n ∧ c.Consumes (Bytes.ofNat n v) d := by
  obtain ⟨b, hl, hv, hc⟩ := number_eq_ok.1 h
  have hlt := b.toNat_lt
  rw [hl, hv] at hlt
  exact ⟨hlt, by rwa [Bytes.ofNat_eq_of_toNat hl hv]⟩

end Cursor

end ColdSigner
