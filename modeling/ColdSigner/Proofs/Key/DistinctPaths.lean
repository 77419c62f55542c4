import ColdSigner.Proofs.Key.ChainCodes
import ColdSigner.Proofs.Key.KeyCollisions
import ColdSigner.Proofs.Key.PathPatterns
import Mathlib.Data.List.Forall2

/-! Which paths lead along the same junctions.

Different paths without a password may have the same junctions, since a code stands for a
number where it can: `//0` and `//00` do. `paths_told_apart` says which paths do and what
follows for the keys. -/
namespace ColdSigner

/-- Segments that are derived alike: both hard or both soft, with codes that stand for the
same number or are the same. -/
structure Segment.Alike (g h : Segment) : Prop where
  isHard : g.isHard = h.isHard
  code : Junction.Alike g.code h.code

theorem Segment.junction_eq_iff {g h : Segment} : g.junction = h.junction ↔
    g.isHard = h.isHard ∧ Junction.chainCode g.code = Junction.chainCode h.code := by
  unfold Segment.junction
  cases g.isHard <;> cases h.isHard <;> simp

namespace DerivationPath

variable {p q : DerivationPath}

/-- Paths of as many segments, alike one by one. -/
def Alike (p q : DerivationPath) : Prop := List.Forall₂ Segment.Alike p.segments q.segments

/-- No hash of a code is the chain code of another code in the same place. -/
def HashedApart (p q : DerivationPath) : Prop :=
  ∀ e ∈ p.segments.zip q.segments, Junction.HashedApart e.1.code e.2.code

theorem junctions_eq_iff : p.junctions = q.junctions ↔
    List.Forall₂ (fun g h => g.junction = h.junction) p.segments q.segments := by
  rw [junctions, junctions, ← List.forall₂_eq_eq_eq, List.forall₂_map_left_iff,
    List.forall₂_map_right_iff]

theorem junctions_eq_of_alike (h : p.Alike q) : p.junctions = q.junctions :=
  junctions_eq_iff.2 <| h.imp fun _ _ hsegment =>
    Segment.junction_eq_iff.2 ⟨hsegment.isHard, Junction.chainCode_eq_of_alike hsegment.code⟩

theorem alike_of_junctions_eq (apart : p.HashedApart q) (h : p.junctions = q.junctions) :
    p.Alike q := by
  obtain ⟨hlength, hsegments⟩ := List.forall₂_iff_zip.1 (junctions_eq_iff.1 h)
  refine List.forall₂_iff_zip.2 ⟨hlength, fun hmem => ?_⟩
  obtain ⟨hhard, hcode⟩ := Segment.junction_eq_iff.1 (hsegments hmem)
  exact ⟨hhard, (Junction.chainCode_eq_iff (apart _ hmem)).1 hcode⟩

/-- Different texts are paths of different segments. -/
theorem eq_iff_segments_eq {s t : String} (hs : parse s = .ok p) (ht : parse t = .ok q)
    (hpassword : p.password = q.password) : s = t ↔ p.segments = q.segments := by
  constructor
  · rintro rfl
    rw [Except.ok.inj (hs.symm.trans ht)]
  · intro hsegments
    have hpaths : p = q := by
      cases p
      cases q
      simp_all
    rw [(parse_eq_ok_iff.1 hs).2, (parse_eq_ok_iff.1 ht).2, hpaths]

/-- Two paths without a password have the same junctions exactly if they are alike, unless
hashes of codes collide; as texts they are the same exactly if their segments are. Paths that
are alike lead to the same key, and others to different public keys, unless the paths meet. -/
theorem paths_told_apart {s t : String} (hs : parse s = .ok p) (ht : parse t = .ok q)
    (hp : p.password = none) (hq : q.password = none) (apart : p.HashedApart q) :
    (s = t ↔ p.segments = q.segments) ∧
      (p.junctions = q.junctions ↔ p.Alike q) ∧
      ∀ entropy scheme,
        (p.Alike q → SecretKey.derive entropy p scheme = SecretKey.derive entropy q scheme) ∧
        ∀ k l, SecretKey.derive entropy p scheme = .ok k →
          SecretKey.derive entropy q scheme = .ok l →
            ¬p.Alike q → ¬SecretKey.KeysMeet entropy scheme p q → k.publicKey ≠ l.publicKey := by
  have hpassword : p.password = q.password := hp.trans hq.symm
  refine ⟨eq_iff_segments_eq hs ht hpassword, ⟨alike_of_junctions_eq apart, junctions_eq_of_alike⟩,
    fun entropy scheme => ⟨fun halike => ?_, fun k l hk hl hdiffer hmeet hkeys => ?_⟩⟩
  · exact SecretKey.derive_congr (junctions_eq_of_alike halike) hpassword
  · obtain hjunctions | hkeysMeet := SecretKey.junctions_eq_or_keysMeet hk hl hpassword hkeys
    · exact hdiffer (alike_of_junctions_eq apart hjunctions)
    · exact hmeet hkeysMeet

/-- Two codes of one length that is hashed. -/
theorem hashed_paths_told_apart : ∃ p q : DerivationPath,
    parse "/xxxxxxxxxxxxxxxxxxxxxxxxxxxxxxxxxxxxxxxx" = .ok p ∧
      parse "/yyyyyyyyyyyyyyyyyyyyyyyyyyyyyyyyyyyyyyyy" = .ok q ∧
      p.password = none ∧ q.password = none ∧ p.HashedApart q ∧ p.junctions ≠ q.junctions ∧
      ∀ entropy scheme k l, SecretKey.derive entropy p scheme = .ok k →
        SecretKey.derive entropy q scheme = .ok l → ¬SecretKey.KeysMeet entropy scheme p q →
          k.publicKey ≠ l.publicKey := by
  have hs : parse "/xxxxxxxxxxxxxxxxxxxxxxxxxxxxxxxxxxxxxxxx" =
      .ok ⟨[⟨false, List.replicate 40 'x'⟩], none⟩ :=
    DividedInto.parse_eq ⟨by decide, by decide⟩
  have ht : parse "/yyyyyyyyyyyyyyyyyyyyyyyyyyyyyyyyyyyyyyyy" =
      .ok ⟨[⟨false, List.replicate 40 'y'⟩], none⟩ :=
    DividedInto.parse_eq ⟨by decide, by decide⟩
  have hhashes : Junction.chainCode (List.replicate 40 'x') ≠
      Junction.chainCode (List.replicate 40 'y') := by
    decide +kernel
  have apart : HashedApart ⟨[⟨false, List.replicate 40 'x'⟩], none⟩
      ⟨[⟨false, List.replicate 40 'y'⟩], none⟩ :=
    List.forall_mem_singleton.2 fun _ heq => absurd heq hhashes
  obtain ⟨-, hjunctions, hkeys⟩ := paths_told_apart hs ht rfl rfl apart
  have hdiffer : junctions ⟨[⟨false, List.replicate 40 'x'⟩], none⟩ ≠
      junctions ⟨[⟨false, List.replicate 40 'y'⟩], none⟩ :=
    fun h => hhashes (Junction.soft.inj (List.cons.inj h).1)
  exact ⟨_, _, hs, ht, rfl, rfl, apart, hdiffer, fun entropy scheme k l hk hl =>
    (hkeys entropy scheme).2 k l hk hl (mt hjunctions.2 hdiffer)⟩

/-- Two texts are paths without a password and without hashed codes that have the same
junctions. -/
def SameJunctions (s t : String) : Prop :=
  ∃ p q, parse s = .ok p ∧ parse t = .ok q ∧ p.password = none ∧ q.password = none ∧
    (∀ g ∈ p.segments ++ q.segments, ¬Junction.IsLong g.code) ∧ p.junctions = q.junctions

/-- Numerals of one number have the same junctions, and so has a text that spells one. -/
theorem different_paths_same_junctions :
    "//0" ≠ "//00" ∧ SameJunctions "//0" "//00" ∧
      "//24836" ≠ "//a" ∧ SameJunctions "//24836" "//a" := by
  have same {a b : List Char} (h : Junction.Alike a b) :
      junctions ⟨[⟨true, a⟩], none⟩ = junctions ⟨[⟨true, b⟩], none⟩ :=
    junctions_eq_of_alike (.cons ⟨rfl, h⟩ .nil)
  refine ⟨by decide, ⟨⟨[⟨true, "0".toList⟩], none⟩, ⟨[⟨true, "00".toList⟩], none⟩, ?_⟩,
    by decide, ⟨⟨[⟨true, "24836".toList⟩], none⟩, ⟨[⟨true, "a".toList⟩], none⟩, ?_⟩⟩
  · exact ⟨DividedInto.parse_eq ⟨by decide, by decide⟩, DividedInto.parse_eq ⟨by decide, by decide⟩,
      rfl, rfl, by decide, same (.numerals (n := 0) (by decide) (by decide))⟩
  · exact ⟨DividedInto.parse_eq ⟨by decide, by decide⟩, DividedInto.parse_eq ⟨by decide, by decide⟩,
      rfl, rfl, by decide,
      same (.numeralText (n := 24836) (by decide) ⟨by decide, by decide, by decide⟩)⟩

end DerivationPath

end ColdSigner
