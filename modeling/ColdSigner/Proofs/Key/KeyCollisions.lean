import ColdSigner.Bytes.Lemmas
import ColdSigner.Proofs.Key.Derivation
import Mathlib.Data.List.Induction

/-! What two paths to one key take.

A derivation is a row of steps from the root of the seed, one for each junction. Two rows of
different steps that end in one secret have met on the way: somewhere two different steps led
to the same secret, or steps led back to the root (`eq_or_meet`). What follows the secret is
the curve, so paths lead to one public key only if their junctions are the same, if their
secrets meet, or if two different secret keys have one public key
(`junctions_eq_or_keysMeet`). -/
namespace ColdSigner

/-- Two rows of steps from one start meet on the way: two different steps lead to the same
state, or one step leads back to the start. -/
inductive Meet {σ α : Type} (step : σ → α → σ) (start : σ) (xs ys : List α) : Prop
  | steps {before before' : List α} {x y : α} (hx : before ++ [x] <+: xs)
      (hy : before' ++ [y] <+: ys)
      (differ : (before.foldl step start, x) ≠ (before'.foldl step start, y))
      (meet : step (before.foldl step start) x = step (before'.foldl step start) y)
  | back {before : List α} {x : α} (hx : before ++ [x] <+: xs ∨ before ++ [x] <+: ys)
      (meet : step (before.foldl step start) x = start)

namespace Meet

variable {σ α : Type} {step : σ → α → σ} {start : σ} {xs xs' ys ys' : List α}

theorem mono (h : Meet step start xs ys) (hx : xs <+: xs') (hy : ys <+: ys') :
    Meet step start xs' ys' := by
  cases h with
  | steps hx' hy' differ meet => exact .steps (hx'.trans hx) (hy'.trans hy) differ meet
  | back hback meet =>
    exact .back (hback.imp (fun h => h.trans hx) (fun h => h.trans hy)) meet

/-- Rows of steps that lead to the same state are the same, or they meet. -/
theorem eq_or_meet (h : xs.foldl step start = ys.foldl step start) :
    xs = ys ∨ Meet step start xs ys := by
  -- from the end of both rows: equal last steps are taken off, others have met
  induction xs using List.reverseRecOn generalizing ys with
  | nil =>
    cases ys using List.reverseRecOn with
    | nil => exact .inl rfl
    | append_singleton ys y =>
      rw [List.foldl_append] at h
      exact .inr (.back (.inr List.prefix_rfl) h.symm)
  | append_singleton xs x ih =>
    cases ys using List.reverseRecOn with
    | nil =>
      rw [List.foldl_append] at h
      exact .inr (.back (.inl List.prefix_rfl) h)
    | append_singleton ys y =>
      rw [List.foldl_append, List.foldl_append] at h
      by_cases hlast : (xs.foldl step start, x) = (ys.foldl step start, y)
      · obtain ⟨hstate, rfl⟩ := Prod.mk.inj hlast
        refine (ih hstate).imp (fun hrows => by rw [hrows]) fun hmeet => ?_
        exact hmeet.mono (List.prefix_append ..) (List.prefix_append ..)
      · exact .inr (.steps List.prefix_rfl List.prefix_rfl hlast h)

end Meet

namespace SecretKey

variable {entropy secret derived : Bytes} {domain : String} {scheme : Scheme}
  {junctions : List Junction} {p q : DerivationPath} {k l : SecretKey}

/-! ### Lengths of secrets -/

theorem length_stretchFrom {k : Hmac.Key512} {n : Nat} {link acc : Bytes} (h : acc.length = 64) :
    (stretchFrom k n link acc).length = 64 := by
  induction n generalizing link acc with
  | zero => exact h
  | succ n ih =>
    refine ih ?_
    rw [List.length_zipWith, h]
    rfl

theorem length_root {password : String} (h : root entropy password = .ok secret) :
    secret.length = 32 := by
  unfold root at h
  split at h
  · obtain rfl := Except.ok.inj h
    rw [List.length_take, stretch, length_stretchFrom rfl]
    rfl
  · cases h

theorem length_hardStep (domain : String) (secret : Bytes) (j : Junction) :
    (hardStep domain secret j).length = 32 :=
  FixedBytes.length_eq _

/-- Every secret that hard junctions lead to is as long as the root. -/
theorem length_foldl_hardStep (h : secret.length = 32) :
    (junctions.foldl (hardStep domain) secret).length = 32 := by
  cases junctions using List.reverseRecOn with
  | nil => exact h
  | append_singleton junctions j =>
    rw [List.foldl_append]
    exact length_hardStep ..

/-! ### Meetings -/

/-- Two rows of junctions meet, in the steps of the scheme from the root. -/
def SecretsMeet (secret : Bytes) (xs ys : List Junction) : Scheme → Prop
  | .sr25519 => Meet Sr25519.derive (Sr25519.expand secret) xs ys
  | .ed25519 => Meet (hardStep "Ed25519HDKD") secret xs ys
  | .ecdsa => Meet (hardStep "Secp256k1HDKD") secret xs ys
  | .unsigned => False

/-- Two paths lead to one public key by a collision of a curve, or of what the secrets are
derived by. -/
inductive KeysMeet (entropy : Bytes) (scheme : Scheme) (p q : DerivationPath) : Prop
  | curve {k l : SecretKey} (hk : derive entropy p scheme = .ok k)
      (hl : derive entropy q scheme = .ok l) (differ : k ≠ l) (meet : k.publicKey = l.publicKey)
  | secrets {secret : Bytes} (hroot : root entropy (p.password.getD "") = .ok secret)
      (meet : SecretsMeet secret p.junctions q.junctions scheme)

/-- The key is decided by the junctions and the password. -/
theorem derive_congr (hjunctions : p.junctions = q.junctions) (hpassword : p.password = q.password) :
    derive entropy p scheme = derive entropy q scheme := by
  rw [derive, derive, hjunctions, hpassword]

/-! What is left at the end of the junctions, for each scheme. -/

section Last

variable (hroot : root entropy (p.password.getD "") = .ok secret)
include hroot

theorem derive_sr25519 : derive entropy p .sr25519 =
    .ok (.sr25519 (p.junctions.foldl Sr25519.derive (Sr25519.expand secret))) :=
  bind_eq_ok.2 ⟨secret, hroot, rfl⟩

/-- What is made of the secret behind hashed junctions is made of the last step. -/
theorem eq_ok_of_deriveHard {scheme : Scheme} {last : Bytes → Except KeyError SecretKey}
    (h : (do last (← deriveHard domain scheme (← root entropy (p.password.getD ""))
      p.junctions)) = .ok k) : last (p.junctions.foldl (hardStep domain) secret) = .ok k := by
  obtain ⟨secret', hroot', h⟩ := bind_eq_ok.1 h
  obtain rfl := Except.ok.inj (hroot.symm.trans hroot')
  obtain ⟨derived, hhard, h⟩ := bind_eq_ok.1 h
  obtain ⟨-, rfl⟩ := deriveHard_eq_ok.1 hhard
  exact h

theorem eq_of_derive_ed25519 (h : derive entropy p .ed25519 = .ok k) :
    k = .ed25519 (p.junctions.foldl (hardStep "Ed25519HDKD") secret) :=
  (pure_eq_ok.1 (eq_ok_of_deriveHard hroot h)).symm

theorem exists_of_derive_ecdsa (h : derive entropy p .ecdsa = .ok k) :
    ∃ s : Secp256k1.Scalar, k = .ecdsa s ∧
      s.val = Bytes.toNatBE (p.junctions.foldl (hardStep "Secp256k1HDKD") secret) := by
  have hlast := eq_ok_of_deriveHard hroot h
  dsimp only at hlast
  split at hlast
  · cases hlast
  · split at hlast
    · exact ⟨_, (pure_eq_ok.1 hlast).symm, rfl⟩
    · cases hlast

end Last

/-- One secret key comes of the same junctions, or of secrets that meet. -/
theorem junctions_eq_or_secretsMeet (hk : derive entropy p scheme = .ok k)
    (hl : derive entropy q scheme = .ok k) (hpassword : p.password = q.password)
    (hroot : root entropy (p.password.getD "") = .ok secret) :
    p.junctions = q.junctions ∨ SecretsMeet secret p.junctions q.junctions scheme := by
  have hroot' : root entropy (q.password.getD "") = .ok secret := hpassword ▸ hroot
  cases scheme with
  | sr25519 =>
    rw [derive_sr25519 hroot, ← hl, derive_sr25519 hroot', Except.ok.injEq,
      SecretKey.sr25519.injEq] at hk
    exact Meet.eq_or_meet hk
  | ed25519 =>
    have hkeys := (eq_of_derive_ed25519 hroot hk).symm.trans (eq_of_derive_ed25519 hroot' hl)
    rw [SecretKey.ed25519.injEq] at hkeys
    exact Meet.eq_or_meet hkeys
  | ecdsa =>
    obtain ⟨s, rfl, hs⟩ := exists_of_derive_ecdsa hroot hk
    obtain ⟨s', heq, hs'⟩ := exists_of_derive_ecdsa hroot' hl
    obtain rfl := SecretKey.ecdsa.inj heq
    have hlength (junctions : List Junction) :
        (junctions.foldl (hardStep "Secp256k1HDKD") secret).length = 32 :=
      length_foldl_hardStep (length_root hroot)
    have hsecrets := Bytes.toNatBE_injective ((hlength _).trans (hlength _).symm) (hs.symm.trans hs')
    exact Meet.eq_or_meet hsecrets
  | unsigned =>
    obtain ⟨_, -, h⟩ := bind_eq_ok.1 hk
    cases h

/-- Paths with one password lead to one public key only along the same junctions, unless
they meet. -/
theorem junctions_eq_or_keysMeet (hk : derive entropy p scheme = .ok k)
    (hl : derive entropy q scheme = .ok l) (hpassword : p.password = q.password)
    (h : k.publicKey = l.publicKey) :
    p.junctions = q.junctions ∨ KeysMeet entropy scheme p q := by
  by_cases hkeys : k = l
  · subst hkeys
    obtain ⟨secret, hroot, -⟩ := bind_eq_ok.1 hk
    exact (junctions_eq_or_secretsMeet hk hl hpassword hroot).imp_right (.secrets hroot)
  · exact .inr (.curve hk hl hkeys h)

end SecretKey

end ColdSigner
