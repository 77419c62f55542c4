import ColdSigner.Proofs.Session.Authentication
import ColdSigner.Proofs.Vault.Lasting

/-! What a session asks for before it signs.

A session that waits for an authentication asks for a password where the entry of its
signer says that there is one. The vault goes by the same entry when it signs. And the
entry is as good as on the day it was written: what was given when the key was listed
is what it takes now, whatever the vault was asked in between. -/
namespace ColdSigner

/-- Whatever became of a device, every key in its address book was listed once. -/
theorem Device.Reached.remembered {d : Device} (h : d.Reached) : d.vault.Remembered :=
  h.keep Vault.remembered_empty fun _ _ _ change => change.remembered

namespace Session

variable {s : Session} {d : Device} {cards : List Card} {r : Review.SigningRequest} {proof : Bytes}
  {password : Option String} {details : AddressDetails}

theorem awaiting_of_authenticating (authenticating : s.phase = .authenticating cards r)
    (enabled : d.vault.lookupOn r.signer r.network = some details) :
    (s.view d).awaiting = some (if details.hasPassword then .password else .authentication) := by
  show s.awaiting d = _
  unfold awaiting
  rw [authenticating]
  dsimp only
  rw [needsPassword, enabled]
  rfl

/-- While a session waits for an authentication, it shows the notice of the last one. -/
theorem error_of_authenticating (authenticating : s.phase = .authenticating cards r) :
    (s.view d).error = s.notice := by
  show s.fault? = _
  unfold fault?
  rw [authenticating]

theorem sign_of_listedWith (listed : d.vault.ListedWith r.signer password)
    (enabled : d.vault.lookupOn r.signer r.network = some details)
    (verified : d.vault.authenticator.verifies proof = true)
    (room : Wire.FrameHeader.length < s.settings.frameCapacity)
    (counted : r.signer.scheme = .ed25519 → s.settings.frameCapacity + 65 ≤ Wire.Frame.wordSize) :
    ∃ signature frames, s.sign d cards r proof password =
      some { s with phase := .signed cards r signature frames } := by
  obtain ⟨signature, signed⟩ :=
    listed.sign (Vault.lookup_of_lookupOn enabled) verified r.payload
  obtain ⟨frames, answered⟩ := exists_answer signature room fun hscheme =>
    counted ((Vault.scheme_of_sign signed).symm.trans hscheme)
  exact ⟨signature, frames, sign_eq_signed enabled signed answered⟩

theorem sign_without_password (asked : details.hasPassword = true)
    (enabled : d.vault.lookupOn r.signer r.network = some details)
    (verified : d.vault.authenticator.verifies proof = true) :
    s.sign d cards r proof none = some (s.retry .passwordRequired) := by
  have hsign : d.vault.sign (details.derivedKey r.signer) none proof r.payload =
      .error .passwordRequired := by
    rw [Vault.sign, Vault.authenticate_eq_ok.2 verified]
    exact if_pos ⟨asked, rfl⟩
  exact sign_of_error enabled hsign

end Session

/-- A session that waits for an authentication says what it takes. Where it asks for no
password, a proof that is verified is enough. Where it asks for one, the proof alone
leaves all as it was, with the notice that a password is required; and together with
the password of its first listing, which there was, the signer signs. -/
theorem prompt_tells_what_it_takes (d : Device) (s : Session) (cards : List Card)
    (r : Review.SigningRequest) (details : AddressDetails) (random : FixedBytes 32) (proof : Bytes)
    (reached : d.Reached) (authenticating : s.phase = .authenticating cards r)
    (enabled : d.vault.lookupOn r.signer r.network = some details)
    (verified : d.vault.authenticator.verifies proof = true)
    (room : Wire.FrameHeader.length < s.settings.frameCapacity)
    (counted : r.signer.scheme = .ed25519 → s.settings.frameCapacity + 65 ≤ Wire.Frame.wordSize) :
    ((s.view d).awaiting = some .authentication ∨ (s.view d).awaiting = some .password) ∧
      ((s.view d).awaiting = some .authentication → ∃ s' signature frames,
        s.update d random (.authenticate proof none) = .ok (s', d) ∧
          s'.phase = .signed cards r signature frames) ∧
      ((s.view d).awaiting = some .password →
        (∃ s', s.update d random (.authenticate proof none) = .ok (s', d) ∧
          s'.phase = .authenticating cards r ∧
            (s'.view d).error = some (.vault .passwordRequired)) ∧
        (∃ w, d.vault.ListedWith r.signer (some w)) ∧
        ∀ w, d.vault.ListedWith r.signer (some w) → ∃ s' signature frames,
          s.update d random (.authenticate proof (some w)) = .ok (s', d) ∧
            s'.phase = .signed cards r signature frames) := by
  have hupdate {password : Option String} {t : Session}
      (ended : s.cleared.sign d cards r proof password = some t) := Session.Step.update_eq
    (@Session.Step.sign s.cleared d random cards r proof password t authenticating ended)
    (by rw [Session.tag, authenticating]; rfl)
  have hsigned {password : Option String} (listed : d.vault.ListedWith r.signer password) :
      ∃ s' signature frames, s.update d random (.authenticate proof password) = .ok (s', d) ∧
        s'.phase = .signed cards r signature frames := by
    obtain ⟨signature, frames, h⟩ := @Session.sign_of_listedWith s.cleared d cards r proof password
      details listed enabled verified room counted
    exact ⟨_, signature, frames, hupdate h, rfl⟩
  have listed := Vault.lookup_of_lookupOn enabled
  obtain ⟨w, hw⟩ := reached.remembered.listedWith r.signer (Option.isSome_iff_exists.2 ⟨_, listed⟩)
  have hasked := hw.isSome_eq listed
  rw [Session.awaiting_of_authenticating authenticating enabled, ← hasked]
  cases w with
  | none =>
    refine ⟨.inl rfl, fun _ => hsigned hw, fun asked => ?_⟩
    cases asked
  | some w =>
    refine ⟨.inr rfl, fun free => ?_, fun _ => ⟨⟨_, hupdate
      (Session.sign_without_password hasked.symm enabled verified), ?_⟩, ⟨w, hw⟩, fun w' hw' => ?_⟩⟩
    · cases free
    · exact ⟨authenticating, Session.error_of_authenticating authenticating⟩
    · exact hsigned hw'

/-- The sample device, with a root key that has a password in place of the one without. -/
def lockedDevice (key : PublicKey) : Device where
  vault := sampleSeeds.setAddress key ⟨⟨0⟩, "sample", "", true, [Review.sampleEntry.network]⟩
  registry := Review.sampleRegistry

theorem lockedDevice_enables (key : PublicKey) :
    (lockedDevice key).vault.lookupOn key Review.sampleEntry.network =
      some ⟨⟨0⟩, "sample", "", true, [Review.sampleEntry.network]⟩ := by
  rw [Vault.lookupOn, lockedDevice, Vault.lookup_setAddress, if_pos rfl]
  rfl

theorem parse_locked_path : DerivationPath.parse? "///lock" = some ⟨[], some "lock"⟩ :=
  DerivationPath.parse?_eq_some.2 ⟨nofun, "///lock".toList, rfl, by decide⟩

theorem createAddress_locked {k : SecretKey} (derived : SecretKey.derive (List.replicate 16 0)
    ⟨[], some "lock"⟩ Review.sampleEntry.specs.scheme = .ok k) :
    sampleSeeds.createAddress ⟨0⟩ "///lock" Review.sampleEntry.network Review.sampleEntry.specs =
      .ok (k.publicKey, (lockedDevice k.publicKey).vault) :=
  Vault.createAddress_eq_ok.2
    ⟨⟨[], some "lock"⟩, _, k, parse_locked_path, rfl, derived, rfl, .inl ⟨rfl, rfl⟩⟩

theorem lockedDevice_asks : ∃ (d : Device) (s : Session) (cards : List Card)
    (r : Review.SigningRequest), d.Reached ∧ s.phase = .authenticating cards r ∧
      (s.view d).awaiting = some .password ∧ d.vault.ListedWith r.signer (some "lock") ∧
        (∃ s', s.update d (.fit 32 []) (.authenticate [1] none) = .ok (s', d) ∧
          (s'.view d).error = some (.vault .passwordRequired)) ∧
        ∃ s' signature frames,
          s.update d (.fit 32 []) (.authenticate [1] (some "lock")) = .ok (s', d) ∧
            s'.phase = .signed cards r signature frames := by
  obtain ⟨k, derived, -⟩ := @SecretKey.exists_derive (List.replicate 16 0) (by decide) (some "lock")
  let m := sampleMessage k.publicKey
  have hcreate := createAddress_locked derived
  have reached : (lockedDevice k.publicKey).Reached :=
    (sampleSeeds_reached.createAddress hcreate).reached
  have listedWith : (lockedDevice k.publicKey).vault.ListedWith k.publicKey (some "lock") :=
    .created sampleSeeds_reached.reached.sound rfl parse_locked_path hcreate
  have enabled := lockedDevice_enables k.publicKey
  let s : Session := { phase := .authenticating m.review.cards m.request }
  have asks : (s.view (lockedDevice k.publicKey)).awaiting = some .password :=
    @Session.awaiting_of_authenticating s _ m.review.cards m.request _ rfl enabled
  obtain ⟨-, -, hpassword⟩ := prompt_tells_what_it_takes (lockedDevice k.publicKey) s m.review.cards
    m.request _ (.fit 32 []) [1] reached rfl enabled rfl
    (show Wire.FrameHeader.length < Wire.defaultCapacity by decide)
    fun _ => show Wire.defaultCapacity + 65 ≤ Wire.Frame.wordSize by decide
  obtain ⟨⟨s', hupdate, -, herror⟩, -, hopened⟩ := hpassword asks
  exact ⟨_, s, _, m.request, reached, rfl, asks, listedWith, ⟨s', hupdate, herror⟩,
    hopened "lock" listedWith⟩

end ColdSigner
