import ColdSigner.Proofs.Wire.CompactForm

/-! Accesses that are checked.

Lists never fail, so they hide what a machine must not do: look outside of a buffer, count
below zero or beyond a word, shift by more than the width of a word. `Guarded` is a
computation that stops where one of these would happen, with a `Violation` that no
caller can take for a failure of its own. `Follows` says that such a computation goes
the way of one without checks, and so never meets a violation. -/
namespace ColdSigner.Checked

/-- What would be wrong with an access. -/
inductive Violation where
  /-- An index or the end of a slice, outside of so many elements. -/
  | outOfRange (place length : Nat)
  /-- A copy to a place of another length. -/
  | lengthsDiffer (expected found : Nat)
  | belowZero (minuend subtrahend : Nat)
  /-- A position beyond its buffer, whose length is the largest that is known to fit a word. -/
  | overflow (position length : Nat)
  | wideShift (distance width : Nat)
  /-- A cursor that is not in order, or not inside of its buffer. -/
  | strayCursor (pos stop length : Nat)
  /-- A failure that is reported outside of the buffer. -/
  | strayFailure (offset length : Nat)
  deriving DecidableEq, Repr

/-- Why a computation stops: a failure of its own, or an access that must not happen. -/
inductive Stop (ε : Type) where
  | failure (e : ε)
  | violation (v : Violation)

abbrev Guarded (ε α : Type) := Except (Stop ε) α

variable {ε ε' α β γ δ : Type}

def fail (e : ε) : Guarded ε α := .error (.failure e)

/-- Goes on where `P` holds. -/
def ensure (P : Prop) [Decidable P] (v : Violation) : Guarded ε Unit :=
  if P then .ok () else .error (.violation v)

@[simp] theorem ok_bind (a : α) (f : α → Except ε β) : (Except.ok a >>= f) = f a := rfl

@[simp] theorem ensure_of {P : Prop} [Decidable P] (h : P) (v : Violation) :
    (ensure P v : Guarded ε Unit) = .ok () := if_pos h

/-! ### Checked operations -/

def itemAt (xs : List α) (i : Nat) : Guarded ε α :=
  match xs[i]? with
  | some x => .ok x
  | none => .error (.violation (.outOfRange i xs.length))

/-- The elements from `start` up to `stop`. -/
def slice (xs : List α) (start stop : Nat) : Guarded ε (List α) := do
  ensure (start ≤ stop ∧ stop ≤ xs.length) (.outOfRange stop xs.length)
  return (xs.take stop).drop start

/-- The bytes `b`, copied over `n` others. -/
def copy (n : Nat) (b : Bytes) : Guarded ε Bytes := do
  ensure (b.length = n) (.lengthsDiffer n b.length)
  return b

/-- The buffer `a` with `b` copied over its first `n` bytes. -/
def overwrite (a : Bytes) (n : Nat) (b : Bytes) : Guarded ε Bytes := do
  let front ← slice a 0 n
  return (← copy front.length b) ++ a.drop n

def minus (a b : Nat) : Guarded ε Nat := do
  ensure (b ≤ a) (.belowZero a b)
  return a - b

/-- The position `n` bytes further in a buffer of so many bytes. -/
def further (pos n length : Nat) : Guarded ε Nat := do
  ensure (pos + n ≤ length) (.overflow (pos + n) length)
  return pos + n

def shiftRight (width v distance : Nat) : Guarded ε Nat := do
  ensure (distance < width) (.wideShift distance width)
  return v >>> distance

/-- What is shifted out of a word is lost. -/
def shiftLeft (width v distance : Nat) : Guarded ε Nat := do
  ensure (distance < width) (.wideShift distance width)
  return v <<< distance % 1 <<< width

theorem itemAt_eq {xs : List α} {i : Nat} (h : i < xs.length) :
    (itemAt xs i : Guarded ε α) = .ok xs[i] := by
  unfold itemAt
  rw [List.getElem?_eq_getElem h]

theorem slice_eq {xs : List α} {start stop : Nat} (h : start ≤ stop) (inside : stop ≤ xs.length) :
    (slice xs start stop : Guarded ε (List α)) = .ok ((xs.take stop).drop start) := by
  rw [slice, ensure_of ⟨h, inside⟩]
  rfl

theorem copy_eq {n : Nat} {b : Bytes} (h : b.length = n) : (copy n b : Guarded ε Bytes) = .ok b := by
  rw [copy, ensure_of h]
  rfl

theorem overwrite_eq {a b : Bytes} (h : b.length ≤ a.length) :
    (overwrite a b.length b : Guarded ε Bytes) = .ok (b ++ a.drop b.length) := by
  have hfront : ((a.take b.length).drop 0).length = b.length := by
    rw [List.drop_zero, List.length_take, Nat.min_eq_left h]
  rw [overwrite, slice_eq (Nat.zero_le _) h, ok_bind, copy_eq hfront.symm]
  rfl

theorem minus_eq {a b : Nat} (h : b ≤ a) : (minus a b : Guarded ε Nat) = .ok (a - b) := by
  rw [minus, ensure_of h]
  rfl

theorem further_eq {pos n length : Nat} (h : pos + n ≤ length) :
    (further pos n length : Guarded ε Nat) = .ok (pos + n) := by
  rw [further, ensure_of h]
  rfl

theorem shiftRight_eq {width v distance : Nat} (h : distance < width) :
    (shiftRight width v distance : Guarded ε Nat) = .ok (v >>> distance) := by
  rw [shiftRight, ensure_of h]
  rfl

theorem shiftLeft_eq {width v distance : Nat} (h : distance < width)
    (fits : v <<< distance < 1 <<< width) :
    (shiftLeft width v distance : Guarded ε Nat) = .ok (v <<< distance) := by
  rw [shiftLeft, ensure_of h, ok_bind, Nat.mod_eq_of_lt fits]
  rfl

/-! ### Following a computation without checks -/

/-- No violation: related results, or one failure with the property `F`. -/
inductive Follows (F : ε → Prop) (R : α → β → Prop) : Guarded ε α → Except ε β → Prop where
  | ok {a : α} {b : β} (related : R a b) : Follows F R (.ok a) (.ok b)
  | failure {e : ε} (holds : F e) : Follows F R (.error (.failure e)) (.error e)

namespace Follows

variable {F : ε → Prop} {R : α → β → Prop} {S : γ → δ → Prop}

theorem bind {x : Guarded ε α} {y : Except ε β} {f : α → Guarded ε γ} {g : β → Except ε δ}
    (h : Follows F R x y) (rest : ∀ a b, R a b → y = .ok b → Follows F S (f a) (g b)) :
    Follows F S (x >>= f) (y >>= g) := by
  cases h with
  | ok related => exact rest _ _ related rfl
  | failure holds => exact .failure holds

/-- With equal results nothing but the failures tells the two apart. -/
theorem eq_mapError {x : Guarded ε α} {y : Except ε α} (h : Follows F Eq x y) :
    x = y.mapError .failure := by
  cases h with
  | ok related => exact congrArg Except.ok related
  | failure => rfl

theorem of_error {x : Guarded ε α} {y : Except ε β} (h : Follows F R x y) {e : ε}
    (hy : y = .error e) : F e := by
  cases h with
  | ok => cases hy
  | failure holds =>
    obtain rfl := Except.error.inj hy
    exact holds

end Follows

/-! ### Compact integers -/

/-- The first `n` bytes, each by its index. -/
def bytesAt (b : Bytes) : Nat → Guarded ε Bytes
  | 0 => return []
  | n + 1 => return (← bytesAt b n) ++ [← itemAt b n]

theorem bytesAt_eq {b : Bytes} {n : Nat} (h : n ≤ b.length) :
    (bytesAt b n : Guarded ε Bytes) = .ok (b.take n) := by
  induction n with
  | zero => rfl
  | succ n ih =>
    rw [bytesAt, ih (Nat.le_of_succ_le h), ok_bind, itemAt_eq h, ok_bind, List.take_append_getElem]
    rfl

/-- A form of `n` bytes, with a value beyond `least` above its mode. -/
def decodeWide (n least : Nat) (b : Bytes) : Guarded Wire.Error (Nat × Nat) := do
  if b.length < n then fail .invalidLength
  else
    let v := (← bytesAt (b.take n) n).toNat / 4
    if v ≤ least then fail .invalidCompact else return (v, n)

/-- A form of a value alone, of `n` bytes behind the first. -/
def decodeBig (n : Nat) (b : Bytes) : Guarded Wire.Error (Nat × Nat) := do
  if 16 < n then fail .invalidCompact
  else if b.length < 1 + n then fail .invalidLength
  else
    let d := (b.take (1 + n)).drop 1
    let v := (← overwrite (List.replicate 16 0) n d).toNat
    if v ≤ Wire.Compact.maxFour then fail .invalidCompact
    else if (← itemAt d (← minus n 1)) = 0 then fail .invalidCompact
    else return (v, 1 + n)

/-- The integer at the front, and the number of bytes it takes. -/
def decodeCompact (b : Bytes) : Guarded Wire.Error (Nat × Nat) :=
  match b with
  | [] => fail .invalidLength
  | first :: _ =>
    match first.toNat % 4 with
    | 0 => return (first.toNat / 4, 1)
    | 1 => decodeWide 2 Wire.Compact.maxOne b
    | 2 => decodeWide 4 Wire.Compact.maxTwo b
    | _ => decodeBig (first.toNat / 4 + 4) b

theorem split_eq (n : Nat) (b : Bytes) :
    Wire.Compact.split n b =
      if b.length < n then .error .invalidLength else .ok (b.take n, b.drop n) := by
  have hlength : (b.take n).length < n ↔ b.length < n := by
    rw [List.length_take]
    omega
  simp only [Wire.Compact.split, hlength]

/-- Compact integers fail for reasons of their own only. -/
abbrev FollowsCompact : Guarded Wire.Error (Nat × Nat) → Except Wire.Error (Nat × Nat) → Prop :=
  Follows (fun _ => True) Eq

theorem follows_decodeWide (n least : Nat) (b : Bytes) :
    FollowsCompact (decodeWide n least b) (Wire.Compact.decodeWide n least b) := by
  rw [Wire.Compact.decodeWide, split_eq, decodeWide]
  by_cases hshort : b.length < n
  · rw [if_pos hshort, if_pos hshort]
    exact .failure trivial
  · have hlength : (b.take n).length = n := by
      rw [List.length_take]
      omega
    rw [if_neg hshort, if_neg hshort, bytesAt_eq (Nat.le_of_eq hlength.symm), ok_bind,
      List.take_of_length_le (Nat.le_of_eq hlength)]
    dsimp only [Except.bind]
    by_cases hleast : Bytes.toNat (b.take n) / 4 ≤ least
    · rw [if_pos hleast, if_pos hleast]
      exact .failure trivial
    · rw [if_neg hleast, if_neg hleast]
      exact .ok rfl

/-- A number is small when its last byte is zero. -/
theorem toNat_lt_iff {d : Bytes} {n : Nat} (h : d.length = n + 1) :
    d.toNat < 256 ^ n ↔ d[n] = 0 := by
  have hlength : (d.take n).length = n := by
    rw [List.length_take, h]
    omega
  have hfront : Bytes.toNat (d.take n) < 256 ^ n := by
    have hlt := Bytes.toNat_lt (d.take n)
    rwa [hlength] at hlt
  have hvalue : d.toNat = Bytes.toNat (d.take n) + 256 ^ n * d[n].toNat := by
    have hsplit := Bytes.toNat_append (d.take n) [d[n]]
    rw [List.take_append_getElem, List.take_of_length_le (Nat.le_of_eq h), hlength] at hsplit
    exact hsplit
  rw [hvalue, ← UInt8.toNat_inj]
  cases hlast : d[n].toNat with
  | zero => simpa using hfront
  | succ k =>
    rw [Nat.mul_succ]
    exact iff_of_false (by omega) (Nat.succ_ne_zero k)

theorem follows_decodeBig (n : Nat) (hn : n ≠ 0) (x : UInt8) (t : Bytes) :
    FollowsCompact (decodeBig n (x :: t)) (Wire.Compact.decodeBig n t) := by
  rw [Wire.Compact.decodeBig, split_eq, decodeBig]
  by_cases hbig : 16 < n
  · rw [if_pos hbig, if_pos hbig]
    exact .failure trivial
  rw [if_neg hbig, if_neg hbig]
  by_cases hshort : t.length < n
  · rw [if_pos hshort, if_pos (by rw [List.length_cons]; omega)]
    exact .failure trivial
  rw [if_neg hshort, if_neg (by rw [List.length_cons]; omega), Nat.add_comm 1 n, List.take_succ_cons,
    List.drop_one, List.tail_cons]
  obtain ⟨n, rfl⟩ : ∃ k, n = k + 1 := Nat.exists_eq_succ_of_ne_zero hn
  generalize hd : t.take (n + 1) = d
  have hlength : d.length = n + 1 := by
    rw [← hd, List.length_take]
    omega
  have hover := @overwrite_eq Wire.Error (List.replicate 16 0) d (by simp; omega)
  rw [hlength] at hover
  dsimp only [Except.bind]
  rw [hover, ok_bind, Bytes.toNat_append, List.drop_replicate, Bytes.toNat_zeros, Nat.mul_zero,
    Nat.add_zero, minus_eq (by omega : 1 ≤ n + 1), ok_bind, Nat.add_sub_cancel,
    itemAt_eq (by omega : n < d.length), ok_bind]
  by_cases hfour : Bytes.toNat d ≤ Wire.Compact.maxFour
  · rw [if_pos hfour, if_pos (.inl hfour)]
    exact .failure trivial
  rw [if_neg hfour]
  by_cases hlast : d[n] = 0
  · rw [if_pos hlast, if_pos (.inr ((toNat_lt_iff hlength).2 hlast))]
    exact .failure trivial
  · rw [if_neg hlast, if_neg (not_or.2 ⟨hfour, fun h => hlast ((toNat_lt_iff hlength).1 h)⟩)]
    exact .ok rfl

/-- Compact integers are read without a violation. -/
theorem follows_decodeCompact (b : Bytes) :
    FollowsCompact (decodeCompact b) (Wire.Compact.decode b) := by
  cases b with
  | nil => exact .failure trivial
  | cons x t =>
    rw [Wire.Compact.decode_cons, decodeCompact]
    rcases x.toNat % 4 with _ | _ | _ | mode
    · exact .ok rfl
    · exact follows_decodeWide ..
    · exact follows_decodeWide ..
    · exact follows_decodeBig _ (Nat.succ_ne_zero _) x t

end ColdSigner.Checked
