import ColdSigner.Metadata.Reader
import ColdSigner.Proofs.Access.Tables
import ColdSigner.Proofs.Access.Window

/-! Metadata blobs, read with checks.

The readers of blobs again, over windows. A blob is read before anything is known of what it
describes, so nothing is required of it: `follows_load` holds of every sequence of bytes. -/
namespace ColdSigner.Checked.Blob

open Metadata (Fault Misreading)

/-- A checked reader of one thing: the thing, and the window after it. -/
abbrev Read (α : Type) := Window → Guarded Fault (α × Window)

variable {α : Type}

def misread (what : Misreading) (offset : Nat) : Guarded Fault α :=
  Checked.fail (.misread what offset)

def readBytes (n : Nat) : Read Bytes := fun w => do
  match ← w.take? n with
  | some r => return r
  | none => misread .unexpectedEnd w.pos

def readNumber (n : Nat) : Read Nat := fun w => do
  let (b, w) ← readBytes n w
  return (Bytes.toNat (← slice b 0 n), w)

def readByte : Read UInt8 := fun w => do
  let (b, w) ← readBytes 1 w
  return (← itemAt b 0, w)

def readCompact : Read Nat := fun w =>
  match w.compact with
  | .ok r => .ok r
  | .error (.failure _) => misread .invalidCompact w.pos
  | .error (.violation v) => .error (.violation v)

def readCount : Read Nat := fun start => do
  let (n, w) ← readCompact start
  if (← w.remaining) < n then misread .excessiveCount start.pos else return (n, w)

def readTypeId : Read TypeId := fun start => do
  let (n, w) ← readCompact start
  if n < UInt32.size then return (UInt32.ofNat n, w) else misread .typeIdOutOfRange start.pos

def readText : Read String := fun w => do
  let (n, start) ← readCount w
  let (b, w) ← readBytes n start
  match b.toText? with
  | some s => return (s, w)
  | none => misread .invalidUtf8 start.pos

def readOption (read : Read α) : Read (Option α) := fun start => do
  let (tag, w) ← readByte start
  if tag = 0 then return (none, w)
  else if tag = 1 then
    let (x, w) ← read w
    return (some x, w)
  else misread .invalidOption start.pos

def readTimes (read : Read α) : Nat → List α → Read (List α)
  | 0, acc, w => .ok (acc.reverse, w)
  | n + 1, acc, w => do
    let (x, w) ← read w
    readTimes read n (x :: acc) w

def readList (read : Read α) : Read (List α) := fun w => do
  let (n, w) ← readCount w
  readTimes read n [] w

def readField : Read Field := fun w => do
  let (name, w) ← readOption readText w
  let (typeName, w) ← readOption readText w
  let (type, w) ← readTypeId w
  return (⟨name, typeName, type⟩, w)

def readVariant : Read Variant := fun w => do
  let (index, w) ← readByte w
  let (name, w) ← readText w
  let (fields, w) ← readList readField w
  return (⟨index, name, fields⟩, w)

def readTypeDef : Read TypeDef := fun start => do
  let (tag, w) ← readByte start
  match tag.toNat with
  | 0 =>
    let (b, w) ← readByte w
    match Primitive.ofByte? b with
    | some t => return (.primitive t, w)
    | none => misread .unknownPrimitive start.pos
  | 1 =>
    let (t, w) ← readTypeId w
    return (.compact t, w)
  | 2 =>
    let (t, w) ← readTypeId w
    return (.sequence t, w)
  | 3 =>
    let (n, w) ← readNumber 4 w
    let (t, w) ← readTypeId w
    return (.array (UInt32.ofNat n) t, w)
  | 4 =>
    let (types, w) ← readList readTypeId w
    return (.tuple types, w)
  | 5 =>
    let (fields, w) ← readList readField w
    return (.composite fields, w)
  | 6 =>
    let (variants, w) ← readList readVariant w
    return (.variant variants, w)
  | _ => misread .unknownTag start.pos

def readType : Read TypeEntry := fun w => do
  let (path, w) ← readText w
  let (definition, w) ← readTypeDef w
  return (⟨path, definition⟩, w)

def readPallet : Read Pallet := fun w => do
  let (name, w) ← readText w
  let (index, w) ← readByte w
  let (calls, w) ← readOption readTypeId w
  return (⟨name, index, calls⟩, w)

def readScheme : Read Scheme := fun start => do
  let (b, w) ← readByte start
  match Scheme.ofByte? b with
  | some .unsigned => misread .invalidScheme start.pos
  | some s => return (s, w)
  | none => misread .invalidScheme start.pos

def readHead : Read Unit := fun w => do
  let (m, w) ← readBytes 4 w
  if m ≠ Metadata.magic then misread .invalidMagic 0
  else
    let (v, w) ← readByte w
    if v ≠ Metadata.formatVersion then Checked.fail (.unsupportedVersion v) else return ((), w)

def readSpecs : Read (UInt32 × NetworkSpecs) := fun w => do
  let (name, w) ← readText w
  let (version, w) ← readNumber 4 w
  let (format, w) ← readNumber 2 w
  let (decimals, w) ← readByte w
  let (unit, w) ← readText w
  let (scheme, w) ← readScheme w
  return ((UInt32.ofNat version, ⟨name, UInt16.ofNat format, decimals, unit, scheme⟩), w)

def decode (blob : Bytes) : Guarded Fault Metadata := do
  let ((), w) ← readHead (← Window.start blob)
  let ((version, specs), w) ← readSpecs w
  let (types, w) ← readList readType w
  let (pallets, w) ← readList readPallet w
  if (← w.remaining) = 0 then return ⟨version, specs, types.toArray, pallets⟩
  else misread .trailingBytes w.pos

def load (network : NetworkId) (blob : Bytes) : Guarded Fault Entry := do
  build network (← decode blob)

/-! ### The same metadata -/

/-- Blobs fail for reasons of their own only. -/
abbrev FollowsBlob {β : Type} (R : α → β → Prop) : Guarded Fault α → Except Fault β → Prop :=
  Follows (fun _ => True) R

/-- A checked reader of the same thing. -/
def Safe (blob : Bytes) (g : Read α) (r : Metadata.Read α) : Prop :=
  ∀ w c, Shows blob w c → FollowsBlob (SameRead blob) (g w) (r c)

variable {blob : Bytes} {w : Window} {c : Cursor}

theorem follows_misread {β : Type} {R : α → β → Prop} {what : Misreading} (h : Shows blob w c) :
    FollowsBlob R (misread what w.pos) (Metadata.misread what c.offset) := by
  rw [h.pos]
  exact .failure trivial

theorem safe_readBytes (n : Nat) : Safe blob (readBytes n) (Metadata.readBytes n) := by
  intro w c h
  obtain ⟨r, htake, same⟩ := @Window.exists_take? Fault blob w c h n
  rw [readBytes, htake, ok_bind, Metadata.readBytes]
  generalize c.take? n = r' at same ⊢
  cases same with
  | some same => exact .ok same
  | none => exact follows_misread h

theorem length_of_readBytes {n : Nat} {b : Bytes} {d : Cursor}
    (h : Metadata.readBytes n c = .ok (b, d)) : b.length = n := by
  unfold Metadata.readBytes at h
  split at h
  · next hn =>
    obtain rfl := Except.ok.inj h
    exact (Cursor.take?_eq_some.1 hn).1
  · cases h

theorem safe_readNumber (n : Nat) : Safe blob (readNumber n) (Metadata.readNumber n) := by
  intro w c h
  refine follows_bind (safe_readBytes n w c h) fun b w' d shows read => ?_
  have hlength := length_of_readBytes read
  dsimp only
  rw [slice_eq (Nat.zero_le _) (Nat.le_of_eq hlength.symm), ok_bind, List.drop_zero,
    List.take_of_length_le (Nat.le_of_eq hlength)]
  exact .ok ⟨rfl, shows⟩

theorem safe_readByte : Safe blob readByte Metadata.readByte := by
  intro w c h
  have hassoc : Metadata.readByte c =
      Metadata.readBytes 1 c >>= fun r => pure (UInt8.ofNat r.1.toNat, r.2) := by
    rw [Metadata.readByte, Metadata.readNumber, bind_assoc]
    rfl
  rw [hassoc]
  refine follows_bind (safe_readBytes 1 w c h) fun b w' d shows read => ?_
  obtain ⟨x, rfl⟩ := List.length_eq_one_iff.1 (length_of_readBytes read)
  refine .ok ⟨?_, shows⟩
  show x = UInt8.ofNat (x.toNat + 256 * 0)
  rw [Nat.mul_zero, Nat.add_zero, UInt8.ofNat_toNat]

theorem safe_readCompact : Safe blob readCompact Metadata.readCompact := by
  intro w c h
  have hcompact := Window.follows_compact h
  rw [readCompact, Metadata.readCompact]
  generalize w.compact = x at hcompact ⊢
  generalize c.compact = y at hcompact ⊢
  cases hcompact with
  | ok same => exact .ok same
  | failure => exact follows_misread h

theorem safe_readCount : Safe blob readCount Metadata.readCount := by
  intro w c h
  refine follows_bind (safe_readCompact w c h) fun n w' d shows _ => ?_
  dsimp only
  rw [Window.remaining_eq shows, ok_bind]
  split
  · exact follows_misread h
  · exact .ok ⟨rfl, shows⟩

theorem safe_readTypeId : Safe blob readTypeId Metadata.readTypeId := by
  intro w c h
  refine follows_bind (safe_readCompact w c h) fun n w' d shows _ => ?_
  dsimp only
  split
  · exact .ok ⟨rfl, shows⟩
  · exact follows_misread h

theorem safe_readText : Safe blob readText Metadata.readText := by
  intro w c h
  refine follows_bind (safe_readCount w c h) fun n start d hstart _ => ?_
  refine follows_bind (safe_readBytes n start d hstart) fun b w' d' shows _ => ?_
  dsimp only
  cases b.toText? with
  | some s => exact .ok ⟨rfl, shows⟩
  | none => exact follows_misread hstart

section

variable {g : Read α} {r : Metadata.Read α} (hread : Safe blob g r)

include hread

theorem safe_readOption : Safe blob (readOption g) (Metadata.readOption r) := by
  intro w c h
  refine follows_bind (safe_readByte w c h) fun tag w' d shows _ => ?_
  dsimp only
  split
  · exact .ok ⟨rfl, shows⟩
  · split
    · refine follows_bind (hread w' d shows) fun x w c h _ => ?_
      exact .ok ⟨rfl, h⟩
    · exact follows_misread h

theorem safe_readTimes (n : Nat) (acc : List α) :
    Safe blob (readTimes g n acc) (Metadata.readTimes r n acc) := by
  induction n generalizing acc with
  | zero => exact fun w c h => .ok ⟨rfl, h⟩
  | succ n ih =>
    exact fun w c h => follows_bind (hread w c h) fun x w' d shows _ => ih (x :: acc) w' d shows

theorem safe_readList : Safe blob (readList g) (Metadata.readList r) := fun w c h =>
  follows_bind (safe_readCount w c h) fun n w' d shows _ => safe_readTimes hread n [] w' d shows

end

theorem safe_readField : Safe blob readField Metadata.readField := by
  intro w c h
  refine follows_bind (safe_readOption safe_readText w c h) fun name w c h _ => ?_
  refine follows_bind (safe_readOption safe_readText w c h) fun typeName w c h _ => ?_
  refine follows_bind (safe_readTypeId w c h) fun type w c h _ => ?_
  exact .ok ⟨rfl, h⟩

theorem safe_readVariant : Safe blob readVariant Metadata.readVariant := by
  intro w c h
  refine follows_bind (safe_readByte w c h) fun index w c h _ => ?_
  refine follows_bind (safe_readText w c h) fun name w c h _ => ?_
  refine follows_bind (safe_readList safe_readField w c h) fun fields w c h _ => ?_
  exact .ok ⟨rfl, h⟩

theorem safe_readTypeDef : Safe blob readTypeDef Metadata.readTypeDef := by
  intro start c hstart
  refine follows_bind (safe_readByte start c hstart) fun tag w c h _ => ?_
  dsimp only
  rcases tag.toNat with _ | _ | _ | _ | _ | _ | _ | kind
  · refine follows_bind (safe_readByte w c h) fun b w c h _ => ?_
    dsimp only
    cases Primitive.ofByte? b with
    | some t => exact .ok ⟨rfl, h⟩
    | none => exact follows_misread hstart
  · refine follows_bind (safe_readTypeId w c h) fun t w c h _ => ?_
    exact .ok ⟨rfl, h⟩
  · refine follows_bind (safe_readTypeId w c h) fun t w c h _ => ?_
    exact .ok ⟨rfl, h⟩
  · refine follows_bind (safe_readNumber 4 w c h) fun n w c h _ => ?_
    refine follows_bind (safe_readTypeId w c h) fun t w c h _ => ?_
    exact .ok ⟨rfl, h⟩
  · refine follows_bind (safe_readList safe_readTypeId w c h) fun types w c h _ => ?_
    exact .ok ⟨rfl, h⟩
  · refine follows_bind (safe_readList safe_readField w c h) fun fields w c h _ => ?_
    exact .ok ⟨rfl, h⟩
  · refine follows_bind (safe_readList safe_readVariant w c h) fun variants w c h _ => ?_
    exact .ok ⟨rfl, h⟩
  · exact follows_misread hstart

theorem safe_readType : Safe blob readType Metadata.readType := by
  intro w c h
  refine follows_bind (safe_readText w c h) fun path w c h _ => ?_
  refine follows_bind (safe_readTypeDef w c h) fun definition w c h _ => ?_
  exact .ok ⟨rfl, h⟩

theorem safe_readPallet : Safe blob readPallet Metadata.readPallet := by
  intro w c h
  refine follows_bind (safe_readText w c h) fun name w c h _ => ?_
  refine follows_bind (safe_readByte w c h) fun index w c h _ => ?_
  refine follows_bind (safe_readOption safe_readTypeId w c h) fun calls w c h _ => ?_
  exact .ok ⟨rfl, h⟩

theorem safe_readScheme : Safe blob readScheme Metadata.readScheme := by
  intro start c hstart
  refine follows_bind (safe_readByte start c hstart) fun b w c h _ => ?_
  dsimp only
  cases Scheme.ofByte? b with
  | none => exact follows_misread hstart
  | some s =>
    cases s with
    | unsigned => exact follows_misread hstart
    | _ => exact .ok ⟨rfl, h⟩

theorem safe_readHead : Safe blob readHead Metadata.readHead := by
  intro w c h
  refine follows_bind (safe_readBytes 4 w c h) fun m w c h _ => ?_
  dsimp only
  split
  · exact .failure trivial
  · refine follows_bind (safe_readByte w c h) fun v w c h _ => ?_
    dsimp only
    split
    · exact .failure trivial
    · exact .ok ⟨rfl, h⟩

theorem safe_readSpecs : Safe blob readSpecs Metadata.readSpecs := by
  intro w c h
  refine follows_bind (safe_readText w c h) fun name w c h _ => ?_
  refine follows_bind (safe_readNumber 4 w c h) fun version w c h _ => ?_
  refine follows_bind (safe_readNumber 2 w c h) fun format w c h _ => ?_
  refine follows_bind (safe_readByte w c h) fun decimals w c h _ => ?_
  refine follows_bind (safe_readText w c h) fun unit w c h _ => ?_
  refine follows_bind (safe_readScheme w c h) fun scheme w c h _ => ?_
  exact .ok ⟨rfl, h⟩

theorem follows_decode (blob : Bytes) : FollowsBlob Eq (decode blob) (Metadata.decode blob) := by
  obtain ⟨w, hstart, h⟩ := @Window.exists_start Fault blob
  rw [decode, hstart, ok_bind]
  refine follows_bind (safe_readHead w _ h) fun _ w c h _ => ?_
  refine follows_bind (safe_readSpecs w c h) fun specs w c h _ => ?_
  refine follows_bind (safe_readList safe_readType w c h) fun types w c h _ => ?_
  refine follows_bind (safe_readList safe_readPallet w c h) fun pallets w c h _ => ?_
  have hempty : c.rest.isEmpty = true ↔ c.remaining = 0 := by
    rw [List.isEmpty_iff, c.remaining_eq, List.length_eq_zero_iff]
  dsimp only
  rw [Window.remaining_eq h, ok_bind]
  by_cases hrest : c.remaining = 0
  · rw [if_pos hrest, if_pos (hempty.2 hrest)]
    exact .ok rfl
  · rw [if_neg hrest, if_neg (mt hempty.1 hrest)]
    exact follows_misread h

/-- Blobs are loaded or refused without a violation. -/
theorem follows_load (network : NetworkId) (blob : Bytes) :
    FollowsBlob Eq (load network blob) (Entry.load network blob) := by
  refine (follows_decode blob).bind fun m m' same _ => ?_
  obtain rfl := same
  rw [build_eq]
  cases Entry.build network m with
  | ok e => exact .ok rfl
  | error f => exact .failure trivial

end ColdSigner.Checked.Blob
