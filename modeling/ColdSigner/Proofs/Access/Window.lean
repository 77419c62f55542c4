import ColdSigner.Proofs.Access.Guard
import ColdSigner.Review.Value

/-! A cursor that checks where it stands.

A cursor keeps the bytes that are left, so it can never point outside of them. A `Window`
keeps positions in a buffer instead, and checks every access to it: the position may
not pass the stop, the stop not the end of the buffer, and no failure is reported beyond
that. `Shows` relates the two, and each way to read is shown to keep it. -/
namespace ColdSigner.Checked

/-- A region of a buffer, and a position in it. -/
structure Window where
  buffer : Bytes
  pos : Nat
  stop : Nat

/-- A failure, which must be reported inside of the buffer. -/
def failAt {α : Type} (buffer : Bytes) (f : DecodeFailure) : Guarded DecodeFailure α := do
  ensure (f.offset ≤ buffer.length) (.strayFailure f.offset buffer.length)
  Checked.fail f

namespace Window

variable {ε α : Type}

/-- A window, which must be in order and inside of its buffer. -/
def make (buffer : Bytes) (pos stop : Nat) : Guarded ε Window := do
  ensure (pos ≤ stop ∧ stop ≤ buffer.length) (.strayCursor pos stop buffer.length)
  return ⟨buffer, pos, stop⟩

def start (b : Bytes) : Guarded ε Window := make b 0 b.length

/-- The bytes from `first` up to `stop`, as far as there are any. -/
def region (b : Bytes) (first stop : Nat) : Guarded ε Window :=
  make b (min first (min stop b.length)) (min stop b.length)

def remaining (w : Window) : Guarded ε Nat := minus w.stop w.pos

/-- The window `n` bytes further. -/
def skip (w : Window) (n : Nat) : Guarded ε Window := do
  make w.buffer (← further w.pos n w.buffer.length) w.stop

def fail (w : Window) (reason : DecodeReason) : Guarded DecodeFailure α :=
  failAt w.buffer ⟨reason, w.pos, none⟩

/-- The next `n` bytes, if as many are left. -/
def take? (w : Window) (n : Nat) : Guarded ε (Option (Bytes × Window)) := do
  if (← w.remaining) < n then return none
  else
    let b ← slice (← slice w.buffer w.pos w.buffer.length) 0 n
    return some (b, ← w.skip n)

def take (w : Window) (n : Nat) : Guarded DecodeFailure (Bytes × Window) := do
  match ← w.take? n with
  | some r => return r
  | none => w.fail .unexpectedEnd

/-- The next `n` bytes, copied to a place of their own. -/
def array (w : Window) (n : Nat) : Guarded DecodeFailure (Bytes × Window) := do
  let (b, w) ← w.take n
  return (← copy n b, w)

def byte (w : Window) : Guarded DecodeFailure (Nat × Window) := do
  let (b, w) ← w.take 1
  return ((← itemAt b 0).toNat, w)

/-- A little-endian number of `n` bytes. -/
def number (w : Window) (n : Nat) : Guarded DecodeFailure (Nat × Window) := do
  let (b, w) ← w.array n
  return (b.toNat, w)

/-- The compact integer that comes next. -/
def compact (w : Window) : Guarded Wire.Error (Nat × Window) := do
  let (v, n) ← decodeCompact (← slice w.buffer w.pos w.stop)
  return (v, ← w.skip n)

def integer (w : Window) : Guarded DecodeFailure (Nat × Window) :=
  match w.compact with
  | .ok r => .ok r
  | .error (.failure .invalidCompact) => w.fail .invalidCompact
  | .error (.failure _) => w.fail .unexpectedEnd
  | .error (.violation v) => .error (.violation v)

def count (w : Window) (minSize limit : Nat) : Guarded DecodeFailure (Nat × Window) := do
  let (claimed, next) ← w.integer
  let remaining ← next.remaining
  let overruns := if minSize = 0 then limit < claimed else remaining < claimed * minSize
  if overruns then w.fail (.lengthOverrun claimed remaining) else return (claimed, next)

/-- All that is left, with the window at the stop. -/
def takeAll (w : Window) : Guarded ε (Bytes × Window) := do
  return ((w.buffer.take w.stop).drop w.pos, ← make w.buffer w.stop w.stop)

end Window

/-! ### What a window shows -/

/-- The window stands in the payload where the cursor does. -/
structure Shows (payload : Bytes) (w : Window) (c : Cursor) : Prop where
  buffer : w.buffer = payload
  pos : w.pos = c.offset
  stop : w.stop = c.stop
  rest : (payload.take c.stop).drop c.offset = c.rest
  inside : c.stop ≤ payload.length

/-- A computation that reports failures inside of the payload. -/
abbrev FollowsIn (payload : Bytes) {α β : Type} (R : α → β → Prop) :
    Guarded DecodeFailure α → Except DecodeFailure β → Prop :=
  Follows (fun f => f.offset ≤ payload.length) R

/-- The same thing was read, up to the same place. -/
def SameRead (payload : Bytes) {α : Type} (x : α × Window) (y : α × Cursor) : Prop :=
  x.1 = y.1 ∧ Shows payload x.2 y.2

/-- After a read that goes the same way, what follows may rely on the same thing and place. -/
theorem follows_bind {ε α γ δ : Type} {payload : Bytes} {F : ε → Prop} {R : γ → δ → Prop}
    {x : Guarded ε (α × Window)} {y : Except ε (α × Cursor)} {f : α × Window → Guarded ε γ}
    {g : α × Cursor → Except ε δ} (h : Follows F (SameRead payload) x y)
    (rest : ∀ a w c, Shows payload w c → y = .ok (a, c) → Follows F R (f (a, w)) (g (a, c))) :
    Follows F R (x >>= f) (y >>= g) := by
  refine h.bind fun a b same hy => ?_
  obtain ⟨a, w⟩ := a
  obtain ⟨b, c⟩ := b
  obtain ⟨rfl, shows⟩ := same
  exact rest _ w c shows hy

variable {ε α β : Type} {payload : Bytes} {w : Window} {c : Cursor}

theorem Shows.ordered (h : Shows payload w c) : w.pos ≤ w.stop ∧ w.stop ≤ w.buffer.length := by
  have hbounded := c.bounded
  rw [h.pos, h.stop, h.buffer]
  exact ⟨by omega, h.inside⟩

theorem Shows.offset_le (h : Shows payload w c) : c.offset ≤ payload.length := by
  have hbounded := c.bounded
  have hinside := h.inside
  omega

theorem follows_failAt {R : α → β → Prop} {f : DecodeFailure} (h : f.offset ≤ payload.length) :
    FollowsIn payload R (failAt payload f) (.error f) := by
  rw [failAt, ensure_of h, ok_bind]
  exact .failure h

namespace Window

theorem make_eq {b : Bytes} {pos stop : Nat} (h : pos ≤ stop) (inside : stop ≤ b.length) :
    (make b pos stop : Guarded ε Window) = .ok ⟨b, pos, stop⟩ := by
  rw [make, ensure_of ⟨h, inside⟩]
  rfl

theorem exists_start (payload : Bytes) :
    ∃ w, (start payload : Guarded ε Window) = .ok w ∧ Shows payload w (.start payload) := by
  refine ⟨_, make_eq (Nat.zero_le _) (Nat.le_refl _), rfl, rfl, rfl, ?_, Nat.le_refl _⟩
  exact List.take_length ..

theorem exists_region (payload : Bytes) (first stop : Nat) :
    ∃ w, (region payload first stop : Guarded ε Window) = .ok w ∧
      Shows payload w (.region payload first stop) :=
  ⟨_, make_eq (Nat.min_le_right ..) (Nat.min_le_right ..), rfl, rfl, rfl, rfl, Nat.min_le_right ..⟩

theorem remaining_eq (h : Shows payload w c) : (w.remaining : Guarded ε Nat) = .ok c.remaining := by
  rw [remaining, minus_eq h.ordered.1, h.pos, h.stop]
  rfl

theorem exists_skip (h : Shows payload w c) {n : Nat} (hn : n ≤ c.rest.length) :
    ∃ w', (w.skip n : Guarded ε Window) = .ok w' ∧ Shows payload w' (c.skip n hn) := by
  have hbounded := c.bounded
  have hinside := h.inside
  have hpos : w.pos + n ≤ w.stop := by
    rw [h.pos, h.stop]
    omega
  refine ⟨⟨w.buffer, w.pos + n, w.stop⟩, ?_, h.buffer, by rw [h.pos]; rfl, h.stop, ?_, hinside⟩
  · rw [skip, further_eq (Nat.le_trans hpos h.ordered.2), ok_bind, make_eq hpos h.ordered.2]
  · show (payload.take c.stop).drop (c.offset + n) = c.rest.drop n
    rw [← h.rest, List.drop_drop]

theorem follows_fail {R : α → β → Prop} {reason : DecodeReason} (h : Shows payload w c) :
    FollowsIn payload R (w.fail reason) (c.fail reason) := by
  rw [fail, h.buffer, h.pos]
  exact follows_failAt h.offset_le

/-! ### Reading -/

theorem exists_take? (h : Shows payload w c) (n : Nat) :
    ∃ r, (w.take? n : Guarded ε (Option (Bytes × Window))) = .ok r ∧
      Option.Rel (SameRead payload) r (c.take? n) := by
  rw [take?, remaining_eq h, ok_bind, Cursor.take?]
  by_cases hn : n ≤ c.remaining
  · have hbounded := c.bounded
    have hinside := h.inside
    have hrest : n ≤ c.rest.length := c.remaining_eq ▸ hn
    obtain ⟨w', hskip, hshows⟩ := @exists_skip ε payload w c h n hrest
    have hpos : w.pos + n ≤ w.buffer.length := by
      rw [h.pos, h.buffer]
      omega
    rw [if_neg (Nat.not_lt.2 hn), dif_pos hn,
      slice_eq (Nat.le_trans (Nat.le_add_right ..) hpos) (Nat.le_refl _), ok_bind, List.take_length,
      slice_eq (Nat.zero_le _) (by rw [List.length_drop]; omega), ok_bind, hskip, ok_bind]
    refine ⟨_, rfl, .some ⟨?_, hshows⟩⟩
    show ((w.buffer.drop w.pos).take n).drop 0 = c.rest.take n
    rw [List.drop_zero, h.buffer, h.pos, ← h.rest, List.take_drop, List.take_drop, List.take_take,
      Nat.min_eq_left (by omega)]
  · rw [if_pos (Nat.lt_of_not_le hn), dif_neg hn]
    exact ⟨none, rfl, .none⟩

theorem follows_take (h : Shows payload w c) (n : Nat) :
    FollowsIn payload (SameRead payload) (w.take n) (c.take n) := by
  obtain ⟨r, htake, same⟩ := @exists_take? DecodeFailure payload w c h n
  rw [take, htake, ok_bind, Cursor.take]
  generalize c.take? n = r' at same ⊢
  cases same with
  | some same => exact .ok same
  | none => exact follows_fail h

/-- A look at what was taken that changes nothing. -/
theorem follows_taken (h : Shows payload w c) {n : Nat}
    {f : Bytes × Window → Guarded DecodeFailure (Bytes × Window)}
    (same : ∀ b w, b.length = n → f (b, w) = .ok (b, w)) :
    FollowsIn payload (SameRead payload) (w.take n >>= f) (c.take n) := by
  have hpure : c.take n >>= pure = c.take n := bind_pure _
  rw [← hpure]
  refine follows_bind (follows_take h n) fun b w' d shows taken => ?_
  rw [same b w' (Cursor.take_eq_ok.1 taken).1]
  exact .ok ⟨rfl, shows⟩

theorem follows_array (h : Shows payload w c) (n : Nat) :
    FollowsIn payload (SameRead payload) (w.array n) (c.take n) := by
  refine follows_taken h fun b w' length => ?_
  dsimp only
  rw [copy_eq length]
  rfl

theorem follows_number (h : Shows payload w c) (n : Nat) :
    FollowsIn payload (SameRead payload) (w.number n) (c.number n) := by
  refine follows_bind (follows_array h n) fun b w' d shows _ => ?_
  exact .ok ⟨rfl, shows⟩

theorem follows_byte (h : Shows payload w c) :
    FollowsIn payload (SameRead payload) w.byte (c.number 1) := by
  refine follows_bind (follows_take h 1) fun b w' d shows taken => ?_
  obtain ⟨x, rfl⟩ := List.length_eq_one_iff.1 (Cursor.take_eq_ok.1 taken).1
  exact .ok ⟨(Nat.add_zero _).symm, shows⟩

theorem follows_compact (h : Shows payload w c) :
    Follows (fun _ => True) (SameRead payload) w.compact c.compact := by
  have hslice : (slice w.buffer w.pos w.stop : Guarded Wire.Error Bytes) = .ok c.rest := by
    rw [slice_eq h.ordered.1 h.ordered.2, h.buffer, h.pos, h.stop, h.rest]
  have hdecode := follows_decodeCompact c.rest
  rw [compact, hslice, ok_bind]
  unfold Cursor.compact
  split
  · next e he =>
    rw [he] at hdecode
    generalize decodeCompact c.rest = x at hdecode ⊢
    cases hdecode
    exact .failure trivial
  · next v n hd =>
    obtain ⟨w', hskip, hshows⟩ := @exists_skip Wire.Error payload w c h n (Wire.Compact.used_le hd)
    rw [hd] at hdecode
    rw [hdecode.eq_mapError]
    show Follows _ _ (w.skip n >>= fun w => pure (v, w)) _
    rw [hskip]
    exact .ok ⟨rfl, hshows⟩

theorem follows_integer (h : Shows payload w c) :
    FollowsIn payload (SameRead payload) w.integer c.integer := by
  have hcompact := follows_compact h
  rw [integer, Cursor.integer]
  generalize w.compact = x at hcompact ⊢
  generalize c.compact = y at hcompact ⊢
  cases hcompact with
  | ok same => exact .ok same
  | @failure e =>
    cases e with
    | invalidCompact => exact follows_fail h
    | _ => exact follows_fail h

theorem follows_count (h : Shows payload w c) (minSize limit : Nat) :
    FollowsIn payload (SameRead payload) (w.count minSize limit) (c.count minSize limit) := by
  refine follows_bind (follows_integer h) fun claimed w' d shows _ => ?_
  dsimp only
  rw [remaining_eq shows, ok_bind]
  by_cases overruns : if minSize = 0 then limit < claimed else d.remaining < claimed * minSize
  · rw [if_pos overruns, if_pos overruns]
    exact follows_fail h
  · rw [if_neg overruns, if_neg overruns]
    exact .ok ⟨rfl, shows⟩

/-- What is left is taken, and nothing is left behind. -/
theorem exists_takeAll (h : Shows payload w c) :
    ∃ w', (w.takeAll : Guarded ε (Bytes × Window)) = .ok (c.rest, w') ∧
      Shows payload w' c.takeAll.2 := by
  have hoffset : c.takeAll.2.offset = c.stop := c.offset_takeAll
  refine ⟨⟨w.buffer, w.stop, w.stop⟩, ?_, h.buffer, ?_, h.stop, ?_, h.inside⟩
  · rw [takeAll, make_eq (Nat.le_refl _) h.ordered.2, h.buffer, h.stop, h.pos, h.rest]
    rfl
  · rw [hoffset, ← h.stop]
  · rw [hoffset]
    show (payload.take c.stop).drop c.stop = c.rest.drop c.rest.length
    rw [List.drop_length, List.drop_eq_nil_of_le (List.length_take_le ..)]

end Window

end ColdSigner.Checked
