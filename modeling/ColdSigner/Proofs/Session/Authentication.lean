import ColdSigner.Proofs.Session.Authorization
import ColdSigner.Proofs.Session.Reached
import ColdSigner.Proofs.Vault.Signing

/-! How an authentication ends.

A session that waits for one signs or waits on, and counts the attempt, as long as its
signer is in the address book. There is one way to lose the request: a password that
misleads, which is one for a key that has none. -/
namespace ColdSigner

theorem Vault.lookup_of_lookupOn {v : Vault} {key : PublicKey} {network : NetworkId}
    {d : AddressDetails} (h : v.lookupOn key network = some d) : v.lookup key = some d :=
  (Option.filter_eq_some_iff.1 h).1

namespace Session

variable {s : Session} {d : Device} {cards : List Card} {r : Review.SigningRequest} {proof : Bytes}
  {password : Option String} {details : AddressDetails}

theorem sign_of_error {e : VaultError} (enabled : d.vault.lookupOn r.signer r.network = some details)
    (failed : d.vault.sign (details.derivedKey r.signer) password proof r.payload = .error e) :
    s.sign d cards r proof password =
      some (if e.isRetryable then s.retry e else s.fail (.vault e)) := by
  unfold sign
  rw [enabled]
  dsimp only
  rw [failed]

theorem sign_of_misled (sound : d.vault.Sound)
    (enabled : d.vault.lookupOn r.signer r.network = some details)
    (misled : d.vault.Misled (details.derivedKey r.signer) proof password) :
    s.sign d cards r proof password = some (s.fail (.vault (.key .invalidKey))) :=
  sign_of_error enabled (sound.sign_of_misled (Vault.lookup_of_lookupOn enabled) misled r.payload)

theorem sign_or_retry (sound : d.vault.Sound)
    (enabled : d.vault.lookupOn r.signer r.network = some details)
    (straight : ¬ d.vault.Misled (details.derivedKey r.signer) proof password)
    (room : Wire.FrameHeader.length < s.settings.frameCapacity)
    (counted : r.signer.scheme = .ed25519 → s.settings.frameCapacity + 65 ≤ Wire.Frame.wordSize) :
    (∃ signature frames, s.sign d cards r proof password =
        some { s with phase := .signed cards r signature frames }) ∨
      ∃ e, s.sign d cards r proof password = some (s.retry e) := by
  rcases sound.sign_or_retry (Vault.lookup_of_lookupOn enabled) straight r.payload with
    ⟨signature, signed⟩ | ⟨e, failed, retryable⟩
  · obtain ⟨frames, answered⟩ := exists_answer signature room fun hscheme =>
      counted ((Vault.scheme_of_sign signed).symm.trans hscheme)
    exact .inl ⟨signature, frames, sign_eq_signed enabled signed answered⟩
  · exact .inr ⟨e, (sign_of_error enabled failed).trans (congrArg some (if_pos retryable))⟩

end Session

/-! ### The sample device -/

/-- The vault of the sample device before it lists a key. -/
def sampleSeeds : Vault where
  authenticator := ⟨fun proof => proof == [1]⟩
  next := 1
  seeds := ⟨[(⟨0⟩, ⟨"sample", List.replicate 16 0⟩)]⟩

theorem sampleSeeds_reached : Device.ReachedAfter 1 ⟨sampleSeeds, Review.sampleRegistry⟩ := by
  have himport : Vault.importSeed { authenticator := sampleSeeds.authenticator } "sample"
      (List.replicate 16 0) = .ok (⟨0⟩, sampleSeeds) :=
    Vault.importSeed_eq_ok.2 ⟨by decide, by decide, nofun, by decide, rfl, rfl⟩
  exact (Device.ReachedAfter.new sampleSeeds.authenticator Review.sampleRegistry).importSeed himport

/-- The sample device comes about by an import and the creation of one address. -/
theorem sampleDevice_reached {k : SecretKey}
    (derived : SecretKey.derive (List.replicate 16 0) ⟨[], none⟩ .ed25519 = .ok k) :
    (sampleDevice k.publicKey).ReachedAfter 1 := by
  have hcreate : sampleSeeds.createAddress ⟨0⟩ "" Review.sampleEntry.network
      Review.sampleEntry.specs = .ok (k.publicKey, (sampleDevice k.publicKey).vault) :=
    Vault.createAddress_eq_ok.2
      ⟨⟨[], none⟩, _, k, parse?_root_path, rfl, derived, rfl, .inl ⟨rfl, rfl⟩⟩
  exact sampleSeeds_reached.createAddress hcreate

/-! ### Authentications -/

/-- An authentication signs or waits for another one, with the attempt counted, unless
its proof is verified and its password misleads: then the request is lost. -/
theorem authentication_retries_unless_misled (d : Device) (s : Session) (cards : List Card)
    (r : Review.SigningRequest) (details : AddressDetails) (random : FixedBytes 32) (proof : Bytes)
    (password : Option String) (reached : d.Reached)
    (authenticating : s.phase = .authenticating cards r)
    (enabled : d.vault.lookupOn r.signer r.network = some details)
    (room : Wire.FrameHeader.length < s.settings.frameCapacity)
    (counted : r.signer.scheme = .ed25519 → s.settings.frameCapacity + 65 ≤ Wire.Frame.wordSize) :
    ∃ s', s.update d random (.authenticate proof password) = .ok (s', d) ∧
      (¬ d.vault.Misled (details.derivedKey r.signer) proof password →
        (∃ signature frames, s'.phase = .signed cards r signature frames) ∨
          s'.phase = .authenticating cards r ∧
            s'.attempts = min (s.attempts + 1) Session.maxAttempts) ∧
      (d.vault.Misled (details.derivedKey r.signer) proof password →
        s'.phase = .failed (.vault (.key .invalidKey)) (some ⟨cards, .sign r⟩)) := by
  have accepted : s.tag.accepts (Action.authenticate proof password).kind = true := by
    rw [Session.tag, authenticating]
    rfl
  have hupdate {t : Session} (ended : s.cleared.sign d cards r proof password = some t) :=
    (@Session.Step.sign s.cleared d random cards r proof password t authenticating ended).update_eq
      accepted
  by_cases misled : d.vault.Misled (details.derivedKey r.signer) proof password
  · refine ⟨_, hupdate (Session.sign_of_misled reached.sound enabled misled),
      fun straight => absurd misled straight, fun _ => ?_⟩
    show Phase.failed _ s.phase.review? = _
    rw [authenticating]
    rfl
  · rcases @Session.sign_or_retry s.cleared d cards r proof password details reached.sound enabled
      misled room counted with ⟨signature, frames, hsigned⟩ | ⟨e, hretry⟩
    · exact ⟨_, hupdate hsigned, fun _ => .inl ⟨signature, frames, rfl⟩, fun h => absurd h misled⟩
    · exact ⟨_, hupdate hretry, fun _ => .inr ⟨authenticating, rfl⟩, fun h => absurd h misled⟩

theorem sample_authentication_retries : ∃ (d : Device) (s s' : Session) (cards : List Card)
    (r : Review.SigningRequest), d.Reached ∧ s.phase = .authenticating cards r ∧
      (d.vault.lookupOn r.signer r.network).isSome = true ∧
        s.update d (.fit 32 []) (.authenticate [0] none) = .ok (s', d) ∧
          ((∃ signature frames, s'.phase = .signed cards r signature frames) ∨
            s'.phase = .authenticating cards r ∧ s'.attempts = 1) := by
  obtain ⟨k, derived, -⟩ := @SecretKey.exists_derive (List.replicate 16 0) (by decide) none
  let m := sampleMessage k.publicKey
  have enabled := sampleDevice_enables k.publicKey
  have reached := (sampleDevice_reached derived).reached
  obtain ⟨s', hupdate, hstraight, -⟩ := authentication_retries_unless_misled
    (sampleDevice k.publicKey) { phase := .authenticating m.review.cards m.request } m.review.cards
    m.request _ (.fit 32 []) [0] none reached rfl enabled
    (show Wire.FrameHeader.length < Wire.defaultCapacity by decide)
    fun _ => show Wire.defaultCapacity + 65 ≤ Wire.Frame.wordSize by decide
  refine ⟨_, _, s', _, _, reached, rfl, congrArg Option.isSome enabled, hupdate,
    hstraight ?_⟩
  rintro ⟨-, w, hw, -⟩
  cases hw

/-- Nothing asks for a password of the sample key. One that leads to another key loses the
request all the same, and no attempt is counted. Which passwords do is not worked out here: a
key takes 2048 rounds of hashing. -/
theorem unasked_password_loses_request : ∃ (d : Device) (s : Session) (cards : List Card)
    (r : Review.SigningRequest) (details : AddressDetails), d.Reached ∧
      s.phase = .authenticating cards r ∧
      d.vault.lookupOn r.signer r.network = some details ∧ details.hasPassword = false ∧
        ∀ w, ∃ k, SecretKey.derive (List.replicate 16 0) ⟨[], some w⟩ .ed25519 = .ok k ∧
          (k.publicKey ≠ r.signer → ∃ s',
            s.update d (.fit 32 []) (.authenticate [1] (some w)) = .ok (s', d) ∧
              s'.phase = .failed (.vault (.key .invalidKey)) (some ⟨cards, .sign r⟩) ∧
                s'.attempts = s.attempts) := by
  obtain ⟨k, derived, hscheme⟩ := @SecretKey.exists_derive (List.replicate 16 0) (by decide) none
  let m := sampleMessage k.publicKey
  let s : Session := { phase := .authenticating m.review.cards m.request }
  have enabled := sampleDevice_enables k.publicKey
  have reached := (sampleDevice_reached derived).reached
  refine ⟨_, s, _, _, _, reached, rfl, enabled, rfl, fun w => ?_⟩
  obtain ⟨k', derived', -⟩ := @SecretKey.exists_derive (List.replicate 16 0) (by decide) (some w)
  refine ⟨k', derived', fun other => ?_⟩
  have misleads : (sampleDevice k.publicKey).vault.Misleads ⟨⟨0⟩, "", false, k.publicKey⟩ w := by
    refine ⟨_, _, rfl, parse_root_path, fun k'' derived'' => ⟨?_, rfl⟩⟩
    rw [hscheme] at derived''
    obtain rfl := Except.ok.inj (derived'.symm.trans derived'')
    exact other
  have ended := @Session.sign_of_misled s.cleared _ m.review.cards m.request [1] (some w) _
    reached.sound enabled ⟨rfl, w, rfl, misleads⟩
  exact ⟨_, (@Session.Step.sign s.cleared _ (.fit 32 []) m.review.cards m.request [1] (some w) _ rfl
    ended).update_eq rfl, rfl, rfl⟩

end ColdSigner
