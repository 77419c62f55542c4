import ColdSigner.Key.Secret
import ColdSigner.Proofs.Wire.Consumption

/-! What a derivation depends on.

A derived key is of the scheme that was asked for. Whether there is one is decided by
the entropy, the junctions and the scheme; a password has a say only in whether the
bytes that are left are a key. -/
namespace ColdSigner.SecretKey

variable {entropy secret derived : Bytes} {domain : String} {junctions : List Junction}
  {p q : DerivationPath} {scheme : Scheme} {k : SecretKey}

theorem scheme_of_derive (h : derive entropy p scheme = .ok k) : k.publicKey.scheme = scheme := by
  obtain ⟨secret, -, h⟩ := bind_eq_ok.1 h
  cases scheme with
  | sr25519 =>
    obtain rfl := pure_eq_ok.1 h
    rfl
  | ed25519 =>
    obtain ⟨_, -, h⟩ := bind_eq_ok.1 h
    obtain rfl := pure_eq_ok.1 h
    rfl
  | ecdsa =>
    obtain ⟨_, -, h⟩ := bind_eq_ok.1 h
    dsimp only at h
    split at h
    · cases h
    · split at h
      · obtain rfl := pure_eq_ok.1 h
        rfl
      · cases h
  | unsigned => cases h

/-- The secret behind a hard junction, under the name of a scheme. -/
def hardStep (domain : String) (secret : Bytes) (j : Junction) : Bytes :=
  let name := Bytes.ofText domain
  (Blake2b.hash 32 (Wire.Compact.encode name.length ++ name ++ secret ++ j.code.bytes)).bytes

/-- Hard junctions are steps from one secret to the next. -/
theorem deriveHard_eq_ok : deriveHard domain scheme secret junctions = .ok derived ↔
    (∀ j ∈ junctions, j.isHard) ∧ junctions.foldl (hardStep domain) secret = derived := by
  induction junctions generalizing secret with
  | nil => simp [deriveHard]
  | cons junction rest ih =>
    cases junction with
    | soft => simp [deriveHard, Junction.isHard]
    | hard code =>
      rw [deriveHard, ih, List.forall_mem_cons, List.foldl_cons]
      simp [Junction.isHard, hardStep, Junction.code]

/-- Hard junctions lead on from every secret or from none. -/
theorem exists_deriveHard (h : deriveHard domain scheme secret junctions = .ok derived)
    (secret' : Bytes) :
    ∃ derived', deriveHard domain scheme secret' junctions = .ok derived' :=
  ⟨_, deriveHard_eq_ok.2 ⟨(deriveHard_eq_ok.1 h).1, rfl⟩⟩

/-- A number that is out of range is the scalar of no key. -/
theorem derive_ecdsa_or_invalidKey (hroot : root entropy (q.password.getD "") = .ok secret)
    (hhard : deriveHard "Secp256k1HDKD" .ecdsa secret q.junctions = .ok derived) :
    (∃ k, derive entropy q .ecdsa = .ok k) ∨ derive entropy q .ecdsa = .error .invalidKey := by
  have hderive : derive entropy q .ecdsa =
      if Bytes.toNatBE derived = 0 then .error .invalidKey
      else if h : Bytes.toNatBE derived < Secp256k1.order then .ok (.ecdsa ⟨_, h⟩)
      else .error .invalidKey := by
    rw [derive, hroot]
    show (deriveHard _ _ secret _ >>= _) = _
    rw [hhard]
    rfl
  rw [hderive]
  split
  · exact .inr rfl
  · split
    · exact .inl ⟨_, rfl⟩
    · exact .inr rfl

/-- Along the same junctions another password gives a key too, unless the bytes it
gives are none. -/
theorem derive_or_invalidKey (h : derive entropy p scheme = .ok k) (same : q.junctions = p.junctions) :
    (∃ k', derive entropy q scheme = .ok k') ∨ derive entropy q scheme = .error .invalidKey := by
  obtain ⟨secret, hroot, h⟩ := bind_eq_ok.1 h
  have hlength : entropy.length ∈ entropyLengths := by
    unfold root at hroot
    split at hroot
    · next hlength => exact hlength
    · cases hroot
  obtain ⟨secret', hroot'⟩ : ∃ secret', root entropy (q.password.getD "") = .ok secret' :=
    ⟨_, if_pos hlength⟩
  rw [← same] at h
  cases scheme with
  | sr25519 => exact .inl ⟨_, bind_eq_ok.2 ⟨secret', hroot', rfl⟩⟩
  | ed25519 =>
    obtain ⟨_, hhard, -⟩ := bind_eq_ok.1 h
    obtain ⟨derived, hhard'⟩ := exists_deriveHard hhard secret'
    exact .inl ⟨_, bind_eq_ok.2 ⟨secret', hroot', bind_eq_ok.2 ⟨derived, hhard', rfl⟩⟩⟩
  | ecdsa =>
    obtain ⟨_, hhard, -⟩ := bind_eq_ok.1 h
    obtain ⟨derived, hhard'⟩ := exists_deriveHard hhard secret'
    exact derive_ecdsa_or_invalidKey hroot' hhard'
  | unsigned => cases h

/-- Without junctions entropy of a fitting length gives a key, or bytes that are none. -/
theorem derive_root_or_invalidKey (h : entropy.length ∈ entropyLengths) (scheme : Scheme) :
    (∃ k, derive entropy ⟨[], none⟩ scheme = .ok k) ∨
      derive entropy ⟨[], none⟩ scheme = .error .invalidKey := by
  obtain ⟨secret, hroot⟩ : ∃ secret, root entropy "" = .ok secret := ⟨_, if_pos h⟩
  cases scheme with
  | sr25519 | ed25519 => exact .inl ⟨_, bind_eq_ok.2 ⟨secret, hroot, rfl⟩⟩
  | ecdsa => exact derive_ecdsa_or_invalidKey hroot rfl
  | unsigned =>
    refine .inr ?_
    show (root entropy "" >>= _) = _
    rw [hroot]
    rfl

end ColdSigner.SecretKey
