import ColdSigner.Key.PathName
import ColdSigner.Proofs.Key.ChainCodes
import ColdSigner.Proofs.Key.PathPatterns
import ColdSigner.Proofs.Vault.Changes

/-! When the next numbered child is free.

The suggested number is above all that exist as numbered hard children, whatever they are
written as, but the last number of 32 bits has none above it: it is suggested again. So the
suggestion is free exactly if there is no child of the last number (`suggestNext_free`). -/
namespace ColdSigner

theorem Text.dropLead?_eq_some {lead s rest : List Char} :
    dropLead? lead s = some rest ↔ s = lead ++ rest := by
  induction lead generalizing s with
  | nil => simp [dropLead?, eq_comm]
  | cons l lead ih =>
    cases s with
    | nil => simp [dropLead?]
    | cons c s =>
      rw [dropLead?, Option.ite_none_right_eq_some, ih, List.cons_append, List.cons.injEq, @eq_comm _ l]

namespace DerivationPath

variable {path : String} {existing : List String} {code : List Char} {p : DerivationPath}

/-- The hard child of a path with a code. -/
def child (path : String) (code : List Char) : String := path ++ "//" ++ String.ofList code

/-- A number as a code. -/
def numbered (n : Nat) : List Char := (toString n).toList

theorem childIndex?_eq_some {e : String} {i : Nat} : childIndex? path.toList e.toList = some i ↔
    ∃ code, e = child path code ∧ Text.numeral? Text.max32 code = some i := by
  simp only [childIndex?, Option.bind_eq_bind, Option.bind_eq_some_iff, Text.dropLead?_eq_some]
  constructor
  · rintro ⟨_, he, code, rfl, hi⟩
    refine ⟨code, String.toList_inj.1 ?_, hi⟩
    simp [child, he]
  · rintro ⟨code, rfl, hi⟩
    exact ⟨_, by simp [child], code, rfl, hi⟩

/-- The number after `i`, unless `next` or the limit comes first. -/
def raise (next i : Nat) : Nat := max next (min (i + 1) Text.max32)

/-- The number that is suggested. -/
def nextIndex (path : String) (existing : List String) : Nat :=
  (existing.filterMap fun e => childIndex? path.toList e.toList).foldl raise 0

theorem suggestNext_eq (path : String) (existing : List String) :
    suggestNext path existing = child path (numbered (nextIndex path existing)) := by
  rw [child, numbered, String.ofList_toList]
  rfl

theorem foldl_raise_le {indices : List Nat} {next : Nat} (h : next ≤ Text.max32) :
    indices.foldl raise next ≤ Text.max32 := by
  induction indices generalizing next with
  | nil => exact h
  | cons i indices ih => exact ih (Nat.max_le.2 ⟨h, Nat.min_le_right ..⟩)

theorem le_foldl_raise {indices : List Nat} {next : Nat} :
    next ≤ indices.foldl raise next ∧
      ∀ i ∈ indices, min (i + 1) Text.max32 ≤ indices.foldl raise next := by
  induction indices generalizing next with
  | nil => exact ⟨Nat.le_refl _, nofun⟩
  | cons i indices ih =>
    obtain ⟨hnext, hindices⟩ := @ih (raise next i)
    obtain ⟨hle, hi⟩ := Nat.max_le.1 hnext
    exact ⟨hle, List.forall_mem_cons.2 ⟨hi, hindices⟩⟩

theorem nextIndex_le (path : String) (existing : List String) :
    nextIndex path existing ≤ Text.max32 :=
  foldl_raise_le (Nat.zero_le _)

/-- The suggested number is above that of every child, or both are the last. -/
theorem lt_nextIndex {i : Nat} (hmem : child path code ∈ existing)
    (h : Text.numeral? Text.max32 code = some i) :
    i < nextIndex path existing ∨ i = Text.max32 ∧ nextIndex path existing = Text.max32 := by
  have hindex : childIndex? path.toList (child path code).toList = some i :=
    childIndex?_eq_some.2 ⟨code, rfl, h⟩
  have habove : min (i + 1) Text.max32 ≤ nextIndex path existing :=
    le_foldl_raise.2 i (List.mem_filterMap.2 ⟨_, hmem, hindex⟩)
  have hle := nextIndex_le path existing
  have hi := Text.numeral?_le h
  omega

/-- A child has the suggested number only if both are the last. -/
theorem eq_nextIndex_iff {i : Nat} (hmem : child path code ∈ existing)
    (h : Text.numeral? Text.max32 code = some i) :
    i = nextIndex path existing ↔ i = Text.max32 := by
  have hlt := lt_nextIndex hmem h
  have hle := nextIndex_le path existing
  omega

theorem numeral?_numbered {limit n : Nat} (h : n ≤ limit) :
    Text.numeral? limit (numbered n) = some n :=
  Text.numeral?_toString h

theorem suggestNext_mem_iff : suggestNext path existing ∈ existing ↔
    child path (numbered Text.max32) ∈ existing := by
  rw [suggestNext_eq]
  constructor
  · intro hmem
    have hnumber := numeral?_numbered (nextIndex_le path existing)
    rwa [(eq_nextIndex_iff hmem hnumber).1 rfl] at hmem
  · intro hmem
    have hnumber := numeral?_numbered (Nat.le_refl Text.max32)
    rwa [← (eq_nextIndex_iff hmem hnumber).2 rfl]

theorem chainCode_nextIndex_iff (numeral : Text.IsNumeral code) (hmem : child path code ∈ existing)
    (apart : Junction.HashedApart code (numbered (nextIndex path existing))) :
    Junction.chainCode code = Junction.chainCode (numbered (nextIndex path existing)) ↔
      Text.numeral? Text.max32 code = some Text.max32 := by
  have hle := nextIndex_le path existing
  have hwide : Text.max32 ≤ Text.max64 := by decide
  rw [Junction.chainCode_isNumeral_iff numeral (numeral?_numbered (Nat.le_trans hle hwide)) apart]
  constructor
  · intro h
    have hnumber := Text.numeral?_within h hle
    rwa [(eq_nextIndex_iff hmem hnumber).1 rfl] at hnumber
  · intro h
    rw [← (eq_nextIndex_iff hmem h).2 rfl]
    exact Text.numeral?_within h hwide

/-! ### Children as paths -/

/-- A path with a hard code appended: behind a password, this belongs to the password. -/
def extended (p : DerivationPath) (code : List Char) : DerivationPath :=
  match p.password with
  | none => ⟨p.segments ++ [⟨true, code⟩], none⟩
  | some w => ⟨p.segments, some (w ++ "//" ++ String.ofList code)⟩

theorem parse_child (h : parse path = .ok p) (numeral : Text.IsNumeral code) :
    parse (child path code) = .ok (p.extended code) := by
  obtain ⟨⟨hsegments, hpassword⟩, rfl⟩ := parse_eq_ok_iff.1 h
  refine parse_eq_ok_iff.2 ?_
  obtain ⟨segments, password⟩ := p
  cases password with
  | none =>
    have hcode : (Segment.mk true code).Valid := ⟨numeral.ne_nil, numeral.notMem rfl (by decide)⟩
    refine ⟨⟨?_, nofun⟩, String.toList_inj.1 ?_⟩
    · exact List.forall_mem_append.2 ⟨hsegments, List.forall_mem_singleton.2 hcode⟩
    · simp [child, extended, text, path, chars, ending, Segment.chars]
  | some w =>
    obtain ⟨-, hline⟩ := hpassword w rfl
    refine ⟨⟨hsegments, fun v hv => ?_⟩, String.toList_inj.1 ?_⟩
    · obtain rfl := Option.some.inj hv
      have hcode : '\n' ∉ code := numeral.notMem rfl (by decide)
      refine ⟨fun hempty => ?_, by simp [hline, hcode]⟩
      simpa using congrArg String.toList hempty
    · simp [child, extended, text, path, chars, ending]

end DerivationPath

/-- A path is in use for a seed on a network. -/
def Vault.Uses (v : Vault) (h : SeedHandle) (network : NetworkId) (path : String) : Prop :=
  ∃ e ∈ v.addresses.entries, e.2.seed = h ∧ network ∈ e.2.networks ∧ e.2.path = path

namespace DerivationPath

/-- What is suggested in a vault is suggested for the paths of the seed on the network. -/
theorem exists_of_vault_suggestNext {v : Vault} {h : SeedHandle} {network : NetworkId}
    {path s : String} (hs : v.suggestNext h path network = .ok s) :
    ∃ existing, s = suggestNext path existing ∧ ∀ e, e ∈ existing ↔ v.Uses h network e := by
  obtain ⟨addresses, haddresses, hs⟩ := bind_eq_ok.1 hs
  obtain rfl := pure_eq_ok.1 hs
  obtain ⟨-, rfl⟩ := Vault.addressesOf_eq_ok.1 haddresses
  refine ⟨_, rfl, fun e => ?_⟩
  simp [Vault.Uses, and_assoc, and_left_comm]

/-- The suggested path is a numbered hard child, and it is free exactly if there is no child
of the last number. Its code shares its chain code with that of a child that is written as a
numeral, of any number, only if that is of the last number too, unless hashes collide. With
the code a path is a path again; behind a password the code belongs to the password. The same
holds for a vault and the paths that a seed has on a network. -/
theorem suggestNext_free (path : String) (existing : List String) :
    (∃ next ≤ Text.max32, suggestNext path existing = child path (numbered next) ∧
      (suggestNext path existing ∈ existing ↔ child path (numbered Text.max32) ∈ existing) ∧
      ∀ code, Text.IsNumeral code → child path code ∈ existing →
        Junction.HashedApart code (numbered next) →
          (Junction.chainCode code = Junction.chainCode (numbered next) ↔
            Text.numeral? Text.max32 code = some Text.max32)) ∧
      (∀ p code, parse path = .ok p → Text.IsNumeral code →
        parse (child path code) = .ok (p.extended code)) ∧
      ∀ (v : Vault) h network s, v.suggestNext h path network = .ok s →
        (v.Uses h network s ↔ v.Uses h network (child path (numbered Text.max32))) := by
  refine ⟨⟨nextIndex path existing, nextIndex_le path existing, suggestNext_eq path existing,
    suggestNext_mem_iff, fun code numeral hmem apart => chainCode_nextIndex_iff numeral hmem apart⟩,
    fun p code hp numeral => parse_child hp numeral, fun v h network s hs => ?_⟩
  obtain ⟨listed, rfl, hlisted⟩ := exists_of_vault_suggestNext hs
  rw [← hlisted, ← hlisted]
  exact suggestNext_mem_iff

/-- A vault with one seed, and a key of it on one network. -/
def sampleVault : Vault where
  authenticator := ⟨fun _ => false⟩
  next := 1
  seeds := ⟨[(⟨0⟩, ⟨"sample", List.replicate 16 0⟩)]⟩
  addresses := ⟨[(.sr25519 default, ⟨⟨0⟩, "sample", "//a//7", false, [default]⟩)]⟩

/-- Numerals that are written in other ways than the suggested one. -/
theorem suggestNext_after_numerals :
    (∃ next ≤ Text.max32, suggestNext "//a" ["//a//7", "//a//+012"] = child "//a" (numbered next) ∧
      suggestNext "//a" ["//a//7", "//a//+012"] ∉ ["//a//7", "//a//+012"] ∧
      Junction.chainCode "+012".toList ≠ Junction.chainCode (numbered next)) ∧
      parse (child "//a" (numbered 13)) =
        .ok ⟨[⟨true, "a".toList⟩, ⟨true, "13".toList⟩], none⟩ ∧
      ∃ s, sampleVault.suggestNext ⟨0⟩ "//a" default = .ok s ∧ ¬sampleVault.Uses ⟨0⟩ default s := by
  obtain ⟨⟨next, hle, hnext, hmem, hcodes⟩, hparse, hvault⟩ :=
    suggestNext_free "//a" ["//a//7", "//a//+012"]
  have hwide : next ≤ Text.max64 := Nat.le_trans hle (by decide)
  have numeral : Text.IsNumeral "+012".toList :=
    ⟨"012".toList, .inr rfl, by decide, List.all_eq_true.1 (by decide)⟩
  have apart : Junction.HashedApart "+012".toList (numbered next) :=
    Junction.hashedApart_of_short (by decide) (Junction.not_isLong_of_some (numeral?_numbered hwide))
  refine ⟨⟨next, hle, hnext, mt hmem.1 (by decide +kernel), fun heq => ?_⟩, ?_, ?_⟩
  · have hlast := (hcodes _ numeral (by decide) apart).1 heq
    exact absurd hlast (by decide)
  · have hbase : parse "//a" = .ok ⟨[⟨true, "a".toList⟩], none⟩ :=
      DividedInto.parse_eq ⟨by decide, rfl⟩
    exact hparse _ _ hbase (Text.isNumeral_toString 13)
  · refine ⟨_, rfl, mt (hvault sampleVault _ _ _ rfl).1 ?_⟩
    rintro ⟨e, he, -, -, hpath⟩
    obtain rfl := List.mem_singleton.1 he
    exact absurd hpath (by decide +kernel)

/-- After the last number there is no other one. -/
theorem last_child_suggested_again :
    suggestNext "//a" ["//a//4294967295"] ∈ ["//a//4294967295"] := by
  decide +kernel

end DerivationPath

end ColdSigner
