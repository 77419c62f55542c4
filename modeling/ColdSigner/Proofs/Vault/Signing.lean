import ColdSigner.Proofs.Vault.Soundness

/-! How signing with a listed key ends.

The seed of a listed key is there, and its path is one, so that little can fail. A
wrong proof and a missing or wrong password may be tried again. What remains is a
password that no one asked for: it leads to another key, and that the key is wrong is
then not put down to the password. -/
namespace ColdSigner.Vault

/-- The password gives no key of the seed along the path; or another one, though the
key needs no password. -/
def Misleads (v : Vault) (key : DerivedKey) (password : String) : Prop :=
  ∃ s p, v.seeds.find? key.seed = some s ∧ DerivationPath.parse key.path = .ok p ∧
    ∀ k, SecretKey.derive s.entropy (p.withPassword (some password)) key.key.scheme = .ok k →
      k.publicKey ≠ key.key ∧ key.hasPassword = false

/-- The proof is verified, so that the password counts, and it misleads. -/
def Misled (v : Vault) (key : DerivedKey) (proof : Bytes) (password : Option String) : Prop :=
  v.authenticator.verifies proof = true ∧ ∃ w, password = some w ∧ v.Misleads key w

theorem sign_of_not_verifies {v : Vault} {key : DerivedKey} {password : Option String}
    {proof message : Bytes} (h : v.authenticator.verifies proof = false) :
    v.sign key password proof message = .error .authRequired := by
  have hproof : v.authenticate proof = .error .authRequired := by simp [authenticate, h]
  rw [sign, hproof]
  rfl

/-- With a proof, the key that is derived decides. -/
theorem sign_of_verifies {v : Vault} {key : DerivedKey} {s : Seed} {p : DerivationPath}
    {password : Option String} {proof message : Bytes} (h : v.authenticator.verifies proof = true)
    (given : ¬ (key.hasPassword = true ∧ password = none)) (live : v.seeds.find? key.seed = some s)
    (parsed : DerivationPath.parse key.path = .ok p) :
    v.sign key password proof message =
      (SecretKey.derive s.entropy (p.withPassword password) key.key.scheme).mapError .key >>= fun k =>
        if k.publicKey = key.key then .ok (k.sign message)
        else if key.hasPassword then .error .wrongPassword
        else .error (.key .invalidKey) := by
  have hproof : v.authenticate proof = .ok () := authenticate_eq_ok.2 h
  have hpath : parsePath key.path = .ok p := by rw [parsePath, parsed]; rfl
  have hseed : v.seed key.seed = .ok s := seed_eq_ok.2 live
  have hkey : v.secretKey key.seed (p.withPassword password) key.key.scheme =
      (SecretKey.derive s.entropy (p.withPassword password) key.key.scheme).mapError .key := by
    rw [secretKey, hseed]
    rfl
  rw [sign, hproof]
  show (if _ then _ else _) = _
  rw [if_neg given, hpath]
  show (v.secretKey _ _ _ >>= _) = _
  rw [hkey]
  rfl

theorem junctions_withPassword (p : DerivationPath) (w w' : Option String) :
    (p.withPassword w).junctions = (p.withPassword w').junctions := by
  cases w <;> cases w' <;> rfl

section Listed

variable {v : Vault} {key : PublicKey} {d : AddressDetails} {s : Seed} {p : DerivationPath}
  {proof : Bytes} {password : Option String}

theorem misleads_iff {w : String} (live : v.seeds.find? d.seed = some s)
    (parsed : DerivationPath.parse d.path = .ok p) :
    v.Misleads (d.derivedKey key) w ↔
      ∀ k, SecretKey.derive s.entropy (p.withPassword (some w)) key.scheme = .ok k →
        k.publicKey ≠ key ∧ d.hasPassword = false := by
  constructor
  · rintro ⟨s', p', live', parsed', hleads⟩
    obtain rfl := Option.some.inj (live.symm.trans live')
    obtain rfl := Except.ok.inj (parsed.symm.trans parsed')
    exact hleads
  · exact fun hleads => ⟨s, p, live, parsed, hleads⟩

/-- The seed of a listed key is there, and gives it again along its path, which is one.
With any other password there is a key too, or bytes that are none. -/
theorem Sound.exists_path (hv : v.Sound) (listed : v.lookup key = some d) :
    ∃ s p, v.seeds.find? d.seed = some s ∧ DerivationPath.parse d.path = .ok p ∧
      (d.hasPassword = false → ∃ k,
        SecretKey.derive s.entropy (p.withPassword none) key.scheme = .ok k ∧ k.publicKey = key) ∧
      ∀ w, (∃ k, SecretKey.derive s.entropy (p.withPassword w) key.scheme = .ok k) ∨
        SecretKey.derive s.entropy (p.withPassword w) key.scheme = .error .invalidKey := by
  obtain ⟨s, live, derives⟩ := hv.derives_lookup listed
  obtain ⟨p, w₀, k₀, parsed, -, -, hw₀, hk₀, hkey₀⟩ := derives.derived
  refine ⟨s, p, live, parsed, fun hno => ⟨k₀, ?_, hkey₀⟩, fun w => ?_⟩
  · rw [hno, Option.isSome_eq_false_iff, Option.isNone_iff_eq_none] at hw₀
    rwa [← hw₀]
  · exact SecretKey.derive_or_invalidKey hk₀ (junctions_withPassword p w w₀)

/-- A password that misleads ends the matter. -/
theorem Sound.sign_of_misled (hv : v.Sound) (listed : v.lookup key = some d)
    (misled : v.Misled (d.derivedKey key) proof password) (message : Bytes) :
    v.sign (d.derivedKey key) password proof message = .error (.key .invalidKey) := by
  obtain ⟨verified, w, rfl, misleads⟩ := misled
  obtain ⟨s, p, live, parsed, -, hderive⟩ := hv.exists_path listed
  have hsign : v.sign (d.derivedKey key) (some w) proof message =
      (SecretKey.derive s.entropy (p.withPassword (some w)) key.scheme).mapError .key >>= _ :=
    sign_of_verifies verified (by simp) live parsed
  rcases hderive (some w) with ⟨k, hk⟩ | hk
  · obtain ⟨hother, hpassword⟩ := (misleads_iff live parsed).1 misleads k hk
    rw [hk] at hsign
    refine hsign.trans ((if_neg hother).trans (if_neg ?_))
    exact Bool.eq_false_iff.1 hpassword
  · rw [hk] at hsign
    exact hsign

/-- Unless a password misleads there is a signature, or a failure that may be tried
again. -/
theorem Sound.sign_or_retry (hv : v.Sound) (listed : v.lookup key = some d)
    (straight : ¬ v.Misled (d.derivedKey key) proof password) (message : Bytes) :
    (∃ signature, v.sign (d.derivedKey key) password proof message = .ok signature) ∨
      ∃ e, v.sign (d.derivedKey key) password proof message = .error e ∧ e.isRetryable = true := by
  cases verified : v.authenticator.verifies proof with
  | false => exact .inr ⟨_, sign_of_not_verifies verified, rfl⟩
  | true =>
    by_cases asked : d.hasPassword = true ∧ password = none
    · refine .inr ⟨.passwordRequired, ?_, rfl⟩
      rw [sign, authenticate_eq_ok.2 verified]
      exact if_pos asked
    · obtain ⟨s, p, live, parsed, hplain, -⟩ := hv.exists_path listed
      have hsign : v.sign (d.derivedKey key) password proof message =
          (SecretKey.derive s.entropy (p.withPassword password) key.scheme).mapError .key >>= _ :=
        sign_of_verifies verified asked live parsed
      cases password with
      | none =>
        obtain ⟨k, hk, hkey⟩ := hplain (Bool.eq_false_iff.2 fun hpassword => asked ⟨hpassword, rfl⟩)
        rw [hk] at hsign
        exact .inl ⟨k.sign message, hsign.trans (if_pos hkey)⟩
      | some w =>
        -- a password that does not mislead gives a key, and the wrong one only where it was asked for
        obtain ⟨k, hk, hright⟩ : ∃ k,
            SecretKey.derive s.entropy (p.withPassword (some w)) key.scheme = .ok k ∧
              (k.publicKey ≠ key → d.hasPassword = true) := by
          have hleads := fun h => straight ⟨verified, w, rfl, (misleads_iff live parsed).2 h⟩
          simpa using hleads
        rw [hk] at hsign
        by_cases same : k.publicKey = key
        · exact .inl ⟨k.sign message, hsign.trans (if_pos same)⟩
        · exact .inr ⟨.wrongPassword, hsign.trans ((if_neg same).trans (if_pos (hright same))), rfl⟩

end Listed

end ColdSigner.Vault
