import ColdSigner.CommandLine.Run
import ColdSigner.Proofs.Host
import ColdSigner.Proofs.Phrase.Reading
import ColdSigner.Proofs.Session.Prompts

/-! Signing on the command line.

The command that signs and a session on a device take different ways: the one is given
a phrase with a path that may hold a password, the other keeps the seed and the path
apart and is told the password. `Session.after_signed_iff` and `Command.run_sign_eq_ok`
say of each what it takes to come to frames. Where the device lists the key that the
phrase and the path lead to, it takes the same, and the frames are the same. -/
namespace ColdSigner

/-! ### A session -/

namespace Session

/-- The session and the device after actions that are accepted in turn. -/
def after (s : Session) (d : Device) (random : FixedBytes 32) (actions : List Action) :
    Except Stop (Session × Device) :=
  actions.foldlM (fun x a => x.1.update x.2 random a) (s, d)

variable {s s' : Session} {d d' : Device} {random : FixedBytes 32} {payload : Bytes} {review : Review}
  {cards : List Card} {r : Review.SigningRequest} {proof : Bytes} {password : Option String}
  {signature : Signature} {frames : List Bytes}

theorem decode_reviewing_iff : (s.decode d payload).phase = .reviewing review ↔
    Review.decodeRequest payload d.registry.source s.settings.limits = .ok review ∧
      ∀ r, review.request = .sign r → (d.vault.lookupOn r.signer r.network).isSome = true := by
  unfold decode
  cases Review.decodeRequest payload d.registry.source s.settings.limits with
  | error f => simp [fail]
  | ok decoded =>
    obtain ⟨cards, request⟩ := decoded
    cases request with
    | sign r =>
      by_cases enabled : (d.vault.lookupOn r.signer r.network).isSome = true
      · dsimp only
        rw [if_pos enabled]
        constructor
        · rintro ⟨⟩
          exact ⟨rfl, fun _ hr => Review.Request.sign.inj hr ▸ enabled⟩
        · rintro ⟨⟨⟩, -⟩
          rfl
      · dsimp only
        rw [if_neg enabled]
        refine iff_of_false nofun ?_
        rintro ⟨⟨⟩, hall⟩
        exact enabled (hall r rfl)
    | loadMetadata e =>
      constructor
      · rintro ⟨⟩
        exact ⟨rfl, nofun⟩
      · rintro ⟨⟨⟩, -⟩
        rfl

theorem approve_authenticating_iff : (s.approve d review).1.phase = .authenticating cards r ↔
    review = ⟨cards, .sign r⟩ := by
  obtain ⟨cards', request⟩ := review
  cases request with
  | sign r' =>
    show Phase.authenticating cards' r' = _ ↔ _
    simp
  | loadMetadata e =>
    refine iff_of_false ?_ nofun
    unfold approve
    dsimp only
    split <;> nofun

theorem approve_ne_exporting {h : SeedHandle} : (s.approve d review).1.phase ≠ .exporting h := by
  unfold approve
  split
  · nofun
  · split <;> nofun

theorem sign_signed_iff {cards' : List Card} {r' : Review.SigningRequest}
    (authenticating : s.phase = .authenticating cards r) :
    (∃ t, s.sign d cards r proof password = some t ∧
        t.phase = .signed cards' r' signature frames) ↔
      cards = cards' ∧ r = r' ∧ ∃ details, d.vault.lookupOn r.signer r.network = some details ∧
        d.vault.sign (details.derivedKey r.signer) password proof r.payload = .ok signature ∧
          s.answerFrames signature = .ok frames := by
  constructor
  · rintro ⟨t, ended, h⟩
    cases signs_of_sign ended with
    | unlisted | failed | unanswered => cases h
    | retried => cases authenticating.symm.trans h
    | signed enabled signed answered =>
      obtain ⟨rfl, rfl, rfl, rfl⟩ := Phase.signed.inj h
      exact ⟨rfl, rfl, _, enabled, signed, answered⟩
  · rintro ⟨rfl, rfl, details, enabled, signed, answered⟩
    exact ⟨_, sign_eq_signed enabled signed answered, rfl⟩

/-- An accepted action, as far as what comes after depends on it. -/
theorem exists_step {a : Action} (h : s.update d random a = .ok (s', d')) :
    ∃ t, Step s.cleared d random a t d' ∧ s'.phase = t.phase ∧ s'.settings = s.settings := by
  obtain ⟨t, step, rfl⟩ := update_eq_ok h
  exact ⟨t, step, rfl, step.settings_eq⟩

theorem Step.exists_update {a : Action} {t : Session} (step : Step s.cleared d random a t d')
    (accepted : s.tag.accepts a.kind = true) :
    ∃ s', s.update d random a = .ok (s', d') ∧ s'.phase = t.phase ∧ s'.settings = s.settings :=
  ⟨_, step.update_eq accepted, rfl, step.settings_eq⟩

theorem answerFrames_congr (h : s.settings = s'.settings) (signature : Signature) :
    s.answerFrames signature = s'.answerFrames signature := by rw [answerFrames, answerFrames, h]

/-- What it takes to lead a session from a payload to a signature. -/
theorem after_signed_iff (decoding : s.phase = .decoding payload) :
    (∃ s' d', s.after d random [.decode, .approve, .authenticate proof password] = .ok (s', d') ∧
        s'.phase = .signed cards r signature frames) ↔
      Review.decodeRequest payload d.registry.source s.settings.limits = .ok ⟨cards, .sign r⟩ ∧
        ∃ details, d.vault.lookupOn r.signer r.network = some details ∧
          d.vault.sign (details.derivedKey r.signer) password proof r.payload = .ok signature ∧
            s.answerFrames signature = .ok frames := by
  simp only [after, List.foldlM_cons, List.foldlM_nil, bind_eq_ok, pure_eq_ok, Prod.exists]
  constructor
  · rintro ⟨s', d', ⟨s₁, d₁, h₁, s₂, d₂, h₂, s₃, d₃, h₃, heq⟩, hsigned⟩
    obtain ⟨rfl, rfl⟩ := Prod.mk.inj heq
    obtain ⟨t₁, step₁, hphase₁, hsettings₁⟩ := exists_step h₁
    obtain ⟨t₂, step₂, hphase₂, hsettings₂⟩ := exists_step h₂
    obtain ⟨t₃, step₃, hphase₃, -⟩ := exists_step h₃
    cases step₁ with
    | leave leaving => simp at leaving
    | @decode payload' decoding' =>
      obtain rfl : payload = payload' := Phase.decoding.inj (decoding.symm.trans decoding')
      cases step₂ with
      | leave leaving => simp at leaving
      | @approve review reviewing =>
        obtain ⟨hdecode, -⟩ := decode_reviewing_iff.1 (hphase₁.symm.trans reviewing)
        cases step₃ with
        | leave leaving => simp at leaving
        | exportSeed exporting => exact absurd (hphase₂.symm.trans exporting) approve_ne_exporting
        | sign authenticating ended =>
          obtain rfl := approve_authenticating_iff.1 (hphase₂.symm.trans authenticating)
          obtain ⟨rfl, rfl, details, enabled, signed, answered⟩ :=
            (sign_signed_iff authenticating).1 ⟨_, ended, hphase₃.symm.trans hsigned⟩
          refine ⟨hdecode, details, enabled, signed, ?_⟩
          exact (answerFrames_congr (hsettings₂.trans hsettings₁) _).symm.trans answered
  · rintro ⟨hdecode, details, enabled, signed, answered⟩
    have hreviewing : (s.cleared.decode d payload).phase = .reviewing ⟨cards, .sign r⟩ := by
      refine decode_reviewing_iff.2 ⟨hdecode, fun r' hr => ?_⟩
      obtain rfl := Review.Request.sign.inj hr
      rw [enabled]
      rfl
    obtain ⟨s₁, h₁, hphase₁, hsettings₁⟩ :=
      (@Step.decode s.cleared d random payload decoding).exists_update (by rw [tag, decoding]; rfl)
    rw [hreviewing] at hphase₁
    obtain ⟨s₂, h₂, hphase₂, hsettings₂⟩ :=
      (@Step.approve s₁.cleared d random _ hphase₁).exists_update (by rw [tag, hphase₁]; rfl)
    have hframes : s₂.cleared.answerFrames signature = .ok frames :=
      (answerFrames_congr (hsettings₂.trans hsettings₁) _).trans answered
    obtain ⟨s₃, h₃, hphase₃, -⟩ :=
      (@Step.sign s₂.cleared d random cards r proof password _ hphase₂
        (sign_eq_signed enabled signed hframes)).exists_update (by rw [tag, hphase₂]; rfl)
    exact ⟨s₃, d, ⟨s₁, d, h₁, s₂, d, h₂, s₃, d, h₃, rfl⟩, hphase₃⟩

theorem exists_signed_of_tag (h : s.tag = .signed) :
    ∃ cards r signature frames, s.phase = .signed cards r signature frames := by
  unfold tag at h
  cases hphase : s.phase <;> rw [hphase] at h
  case signed cards r signature frames => exact ⟨cards, r, signature, frames, rfl⟩
  all_goals cases h

end Session

/-! ### A command -/

namespace CommandLine

variable {files : Files} {c : Config} {key : KeySelection} {metadata : MetadataSelection}
  {source : PayloadSource} {output : Output}

theorem KeySelection.derive_eq_ok {scheme : Scheme} {k : SecretKey} :
    key.derive scheme = .ok k ↔ ∃ entropy, Phrase.parse key.phrase = .ok entropy ∧
      ∃ p, DerivationPath.parse? key.path = some p ∧ SecretKey.derive entropy p scheme = .ok k := by
  simp only [KeySelection.derive, bind_eq_ok, mapError_eq_ok, DerivationPath.parse_eq_ok]

theorem signReview_eq_ok {r : Review} {capacity : Nat} {frames : List Bytes} :
    signReview r key capacity = .ok frames ↔ ∃ s, r.request = .sign s ∧
      ∃ k, key.derive s.signer.scheme = .ok k ∧ k.publicKey = s.signer ∧
        Wire.Frame.encode (Wire.Response.encode ⟨(k.sign s.payload).scheme, (k.sign s.payload).bytes⟩)
          capacity = .ok frames := by
  obtain ⟨cards, request⟩ := r
  cases request with
  | loadMetadata e =>
    constructor
    · rintro ⟨⟩
    · rintro ⟨s, ⟨⟩, -⟩
  | sign s =>
    simp only [signReview, bind_eq_ok, Review.Request.sign.injEq, exists_eq_left']
    refine exists_congr fun k => and_congr_right fun _ => ?_
    by_cases hk : k.publicKey = s.signer
    · simp only [hk, ne_eq, not_true, if_false, mapError_eq_ok, true_and]
    · simp only [hk, ne_eq, not_false_eq_true, if_true, false_and, iff_false]
      rintro ⟨⟩

/-- What it takes for the command to print frames. -/
theorem Command.run_sign_eq_ok : run files c (.sign key metadata source) = .ok output ↔
    ∃ registry payload r frames, metadata.load files = .ok registry ∧
      source.load files = .ok payload ∧
        Review.decodeRequest payload registry.source c.session.limits = .ok r ∧
          signReview r key c.session.frameCapacity = .ok frames ∧ output = frameLines frames := by
  simp only [run, review, bind_eq_ok, pure_eq_ok, mapError_eq_ok]
  constructor
  · rintro ⟨r, ⟨registry, hregistry, payload, hpayload, hdecode⟩, frames, hsign, rfl⟩
    exact ⟨registry, payload, r, frames, hregistry, hpayload, hdecode, hsign, rfl⟩
  · rintro ⟨registry, payload, r, frames, hregistry, hpayload, hdecode, hsign, rfl⟩
    exact ⟨r, ⟨registry, hregistry, payload, hpayload, hdecode⟩, frames, hsign, rfl⟩

end CommandLine

/-! ### Together -/

/-- The vault holds the seed of a phrase, and lists the key that a path leads to from it. -/
def Vault.Holds (v : Vault) (phrase path : String) (key : PublicKey) : Prop :=
  ∃ h seed, Phrase.parse phrase = .ok seed.entropy ∧ v.seeds.find? h = some seed ∧ v.Lists h path key

open CommandLine

/-- With the password of the path the vault signs as the key of the phrase and the path does. -/
theorem Vault.Holds.sign_iff {v : Vault} {phrase path : String} {p : DerivationPath}
    {r : Review.SigningRequest} {proof : Bytes} {signature : Signature}
    (holds : v.Holds phrase path r.signer) (parsed : DerivationPath.parse? path = some p)
    (enabled : (v.lookupOn r.signer r.network).isSome = true)
    (verified : v.authenticator.verifies proof = true) :
    (∃ details, v.lookupOn r.signer r.network = some details ∧
        v.sign (details.derivedKey r.signer) p.password proof r.payload = .ok signature) ↔
      ∃ k, KeySelection.derive ⟨phrase, path⟩ r.signer.scheme = .ok k ∧ k.publicKey = r.signer ∧
        signature = k.sign r.payload := by
  obtain ⟨h, seed, spelled, live, lists⟩ := holds
  obtain ⟨details, henabled⟩ := Option.isSome_iff_exists.1 enabled
  simp only [henabled, Option.some.injEq, exists_eq_left',
    lists.sign_eq_ok live parsed (Vault.lookup_of_lookupOn henabled) verified,
    KeySelection.derive_eq_ok, spelled, parsed, Except.ok.injEq]

/-- What the command prints, where its registry knows the same of the network of the payload. -/
theorem CommandLine.Command.run_sign_of_known {files : Files} {c : Config}
    {metadata : MetadataSelection} {source : PayloadSource} {registry : Registry} {payload : Bytes}
    {known : MetadataSource} (key : KeySelection) (loaded : metadata.load files = .ok registry)
    (given : source.load files = .ok payload)
    (agrees : ∀ network : NetworkId, network.bytes <:+ payload →
      registry.source.AgreesOn known network) (output : Output) :
    run files c (.sign key metadata source) = .ok output ↔
      ∃ review frames, Review.decodeRequest payload known c.session.limits = .ok review ∧
        signReview review key c.session.frameCapacity = .ok frames ∧ output = frameLines frames := by
  simp only [run_sign_eq_ok, loaded, given, Except.ok.injEq, exists_and_left, exists_eq_left',
    Review.decodeRequest_congr agrees]

/-- The frames that a session comes to are those that the phrase and the path come to. -/
theorem Session.after_signed_iff_signReview {s : Session} {d : Device} (random : FixedBytes 32)
    {payload : Bytes} {phrase path : String} {p : DerivationPath} {cards : List Card}
    {r : Review.SigningRequest} (frames : List Bytes) {proof : Bytes}
    (decoding : s.phase = .decoding payload) (parsed : DerivationPath.parse? path = some p)
    (asked : Review.decodeRequest payload d.registry.source s.settings.limits =
      .ok ⟨cards, .sign r⟩ → d.vault.Holds phrase path r.signer ∧
        (d.vault.lookupOn r.signer r.network).isSome = true)
    (verified : d.vault.authenticator.verifies proof = true) :
    (∃ signature s' d',
        s.after d random [.decode, .approve, .authenticate proof p.password] = .ok (s', d') ∧
          s'.phase = .signed cards r signature frames) ↔
      Review.decodeRequest payload d.registry.source s.settings.limits = .ok ⟨cards, .sign r⟩ ∧
        signReview ⟨cards, .sign r⟩ ⟨phrase, path⟩ s.settings.frameCapacity = .ok frames := by
  simp only [after_signed_iff decoding, exists_and_left]
  refine and_congr_right fun hdecode => ?_
  obtain ⟨holds, enabled⟩ := asked hdecode
  constructor
  · rintro ⟨signature, details, hdetails, hsign, hframes⟩
    obtain ⟨k, hk, hkey, rfl⟩ := (holds.sign_iff parsed enabled verified).1 ⟨details, hdetails, hsign⟩
    exact signReview_eq_ok.2 ⟨r, rfl, k, hk, hkey, hframes⟩
  · intro hreview
    obtain ⟨_, ⟨⟩, k, hk, hkey, hframes⟩ := signReview_eq_ok.1 hreview
    obtain ⟨details, hdetails, hsign⟩ := (holds.sign_iff parsed enabled verified).2 ⟨k, hk, hkey, rfl⟩
    exact ⟨_, details, hdetails, hsign, hframes⟩

/-- A session on a device and the command that signs come to the same. The registry of the command
may have more or less than that of the device, as long as both know the same of the network
of the payload; and the device holds the key that the phrase and the path lead to, and has it
enabled where the payload asks for its signature. Then a session that decodes the payload, is
approved, and authenticates with the password of the path signs if and only if the command
succeeds, and the command prints the frames that the session shows. -/
theorem command_signs_like_session (files : Files) (c : Config) (metadata : MetadataSelection)
    (source : PayloadSource) (registry : Registry) (payload : Bytes) (phrase path : String)
    (p : DerivationPath) (key : PublicKey) (d : Device) (s : Session) (random : FixedBytes 32)
    (proof : Bytes) (loaded : metadata.load files = .ok registry)
    (given : source.load files = .ok payload)
    (known : ∀ network : NetworkId, network.bytes <:+ payload →
      registry.source.AgreesOn d.registry.source network)
    (configured : s.settings = c.session) (decoding : s.phase = .decoding payload)
    (parsed : DerivationPath.parse? path = some p) (holds : d.vault.Holds phrase path key)
    (asked : ∀ cards r, Review.decodeRequest payload d.registry.source c.session.limits =
      .ok ⟨cards, .sign r⟩ → r.signer = key ∧ (d.vault.lookupOn key r.network).isSome = true)
    (verified : d.vault.authenticator.verifies proof = true) :
    ((∃ s' d', s.after d random [.decode, .approve, .authenticate proof p.password] = .ok (s', d') ∧
        s'.tag = .signed) ↔
      ∃ output, Command.run files c (.sign ⟨phrase, path⟩ metadata source) = .ok output) ∧
      ∀ s' d', s.after d random [.decode, .approve, .authenticate proof p.password] = .ok (s', d') →
        s'.tag = .signed →
          Command.run files c (.sign ⟨phrase, path⟩ metadata source) =
            .ok (frameLines (s'.view d').frames) := by
  have hcommand := Command.run_sign_of_known (c := c) ⟨phrase, path⟩ loaded given known
  have held (cards : List Card) (r : Review.SigningRequest)
      (hdecode : Review.decodeRequest payload d.registry.source s.settings.limits =
        .ok ⟨cards, .sign r⟩) : d.vault.Holds phrase path r.signer ∧
          (d.vault.lookupOn r.signer r.network).isSome = true := by
    obtain ⟨rfl, enabled⟩ := asked cards r (configured ▸ hdecode)
    exact ⟨holds, enabled⟩
  have hsession (cards : List Card) (r : Review.SigningRequest) (frames : List Bytes) :=
    Session.after_signed_iff_signReview random frames decoding parsed (held cards r) verified
  rw [configured] at hsession
  have hprinted {s' : Session} {d' : Device}
      (hafter : s.after d random [.decode, .approve, .authenticate proof p.password] = .ok (s', d'))
      (signed : s'.tag = .signed) : Command.run files c (.sign ⟨phrase, path⟩ metadata source) =
        .ok (frameLines (s'.view d').frames) := by
    obtain ⟨cards, r, signature, frames, hphase⟩ := Session.exists_signed_of_tag signed
    obtain ⟨hdecode, hreview⟩ := (hsession cards r frames).1 ⟨signature, s', d', hafter, hphase⟩
    refine (hcommand _).2 ⟨_, frames, hdecode, hreview, ?_⟩
    rw [Session.view, hphase]
    rfl
  refine ⟨⟨?_, ?_⟩, fun s' d' => hprinted⟩
  · rintro ⟨s', d', hafter, signed⟩
    exact ⟨_, hprinted hafter signed⟩
  · rintro ⟨output, hrun⟩
    obtain ⟨⟨cards, request⟩, frames, hdecode, hreview, -⟩ := (hcommand output).1 hrun
    obtain ⟨r, hrequest, -⟩ := signReview_eq_ok.1 hreview
    obtain rfl : request = .sign r := hrequest
    obtain ⟨signature, s', d', hafter, hphase⟩ := (hsession cards r frames).2 ⟨hdecode, hreview⟩
    exact ⟨s', d', hafter, by rw [Session.tag, hphase]; rfl⟩

/-- The metadata of the sample, in the one file that there is. -/
theorem load_sample : MetadataSelection.load ⟨fun _ => .ok Review.sampleEntry.encode, fun _ => none⟩
    ⟨Review.sampleEntry.network, ["sample.bin"]⟩ = .ok Review.sampleRegistry := by
  refine bind_eq_ok.2 ⟨_, bind_eq_ok.2 ⟨Review.sampleEntry.encode, ?_, bind_eq_ok.2
    ⟨(Review.sampleEntry, Review.sampleRegistry), ?_, rfl⟩⟩, rfl⟩
  · have named : extension? "sample.bin" ≠ some "hex" := by decide
    simp only [readInput, named, if_false]
    rfl
  · rw [Registry.load_eq, Entry.load_sampleEntry]
    rfl

theorem lockedDevice_holds {k : SecretKey} (derived : SecretKey.derive (List.replicate 16 0)
    ⟨[], some "lock"⟩ Review.sampleEntry.specs.scheme = .ok k) :
    (lockedDevice k.publicKey).vault.Holds (Phrase.render (List.replicate 16 0)) "///lock"
      k.publicKey :=
  ⟨⟨0⟩, ⟨"sample", List.replicate 16 0⟩, Phrase.parse_render (by decide), rfl,
    Vault.lists_of_createAddress rfl (createAddress_locked derived)⟩

theorem locked_command_signs : ∃ (files : Files) (key : KeySelection) (metadata : MetadataSelection)
    (source : PayloadSource) (d : Device) (s s' : Session) (d' : Device),
    s.after d (.fit 32 []) [.decode, .approve, .authenticate [1] (some "lock")] = .ok (s', d') ∧
      s'.tag = .signed ∧
        Command.run files {} (.sign key metadata source) = .ok (frameLines (s'.view d').frames) := by
  obtain ⟨k, derived, hscheme⟩ :=
    @SecretKey.exists_derive (List.replicate 16 0) (by decide) (some "lock")
  let m := sampleMessage k.publicKey
  let d := lockedDevice k.publicKey
  let s : Session := { phase := .decoding m.encode }
  have holds := lockedDevice_holds derived
  have enabled : d.vault.lookupOn m.request.signer m.request.network = some _ :=
    lockedDevice_enables k.publicKey
  have hdecode : Review.decodeRequest m.encode d.registry.source {} = .ok m.review :=
    Review.decodeRequest_message ⟨hscheme.symm, rfl, by show 2 < 256 ^ 16; decide⟩
  have asked (cards : List Card) (r : Review.SigningRequest)
      (hr : Review.decodeRequest m.encode d.registry.source {} = .ok ⟨cards, .sign r⟩) :
      r.signer = k.publicKey ∧ (d.vault.lookupOn k.publicKey r.network).isSome = true := by
    obtain ⟨-, hrequest⟩ := Review.mk.inj (Except.ok.inj (hdecode.symm.trans hr))
    obtain rfl : m.request = r := Review.Request.sign.inj hrequest
    exact ⟨rfl, Option.isSome_iff_exists.2 ⟨_, enabled⟩⟩
  have signs := command_signs_like_session _ {} _ (.given m.encode) _ _ _ _ _ k.publicKey d s
    (.fit 32 []) [1] load_sample rfl (fun _ _ => ⟨fun _ => rfl, rfl⟩) rfl rfl parse_locked_path holds asked rfl
  -- the session does sign: its key is there, and the answer has room
  have derives : KeySelection.derive ⟨Phrase.render (List.replicate 16 0), "///lock"⟩
      m.request.signer.scheme = .ok k :=
    KeySelection.derive_eq_ok.2 ⟨_, Phrase.parse_render (by decide), _, parse_locked_path,
      hscheme.symm ▸ derived⟩
  obtain ⟨details, hdetails, hsign⟩ := (@Vault.Holds.sign_iff _ _ _ _ m.request [1] _ holds
    parse_locked_path (Option.isSome_iff_exists.2 ⟨_, enabled⟩) rfl).2 ⟨k, derives, rfl, rfl⟩
  obtain ⟨frames, hframes⟩ := exists_answer (k.sign m.request.payload)
    (show Wire.FrameHeader.length < Wire.defaultCapacity by decide)
    fun _ => show Wire.defaultCapacity + 65 ≤ Wire.Frame.wordSize by decide
  obtain ⟨s', d', hafter, hsigned⟩ := (@Session.after_signed_iff s d (.fit 32 []) m.encode _ _ [1] _ _ _
    rfl).2 ⟨hdecode, details, hdetails, hsign, hframes⟩
  have tagged : s'.tag = .signed := by rw [Session.tag, hsigned]; rfl
  exact ⟨_, _, _, _, d, s, s', d', hafter, tagged, signs.2 s' d' hafter tagged⟩

end ColdSigner
