import ColdSigner.Proofs.Phrase.Reading
import ColdSigner.Proofs.Session.Authentication
import ColdSigner.Proofs.Session.Runs
import ColdSigner.Proofs.Vault.Defaults

/-! How the confirmation of a seed ends.

What is drafted in a flow for a seed is complete when it comes to be confirmed: a name
that is not blank, and a phrase that can be read. So there are three ways only. The seed is
kept, with addresses of its own; or it is not, and nothing is left of it; or the handles
run out, and the program stops. -/
namespace ColdSigner

/-! ### Drafts that are complete -/

theorem Vault.Offers.named {v : Vault} {name : String} (h : v.Offers name) :
    Vault.isBlankName (Text.trim name) = false := by
  have hleft : Text.trimChars name.toList ≠ [] := fun hnil => by
    have hempty := h.1
    rw [Text.trim, hnil] at hempty
    cases hempty
  rw [Vault.isBlankName, Text.trim, String.toList_ofList, List.isEmpty_eq_false_iff]
  exact fun hnil => hleft (Text.trimChars_trimChars_eq_nil_iff.1 hnil)

namespace Drafts

variable {log : List Turn} {origin : SeedOrigin} {draft : SeedDraft}

theorem isBlankName_eq (h : Drafts log origin draft) :
    ∀ name, draft.name = some name → Vault.isBlankName name = false := by
  induction h with
  | generated | recovered | misnamed => exact nofun
  | named _ _ offered =>
    intro name hname
    obtain rfl := Option.some.inj hname
    exact offered.named
  | typed _ _ _ ih | mistyped _ _ _ ih => exact ih

theorem exists_parse (h : Drafts log origin draft) :
    ∀ phrase, draft.phrase = some phrase → ∃ entropy, Phrase.parse phrase = .ok entropy := by
  induction h with
  | generated _ drawn =>
    intro phrase hphrase
    obtain rfl := Option.some.inj hphrase
    exact Vault.exists_parse_of_newPhrase drawn
  | recovered | mistyped => exact nofun
  | named _ _ _ ih | misnamed _ _ _ ih => exact ih
  | typed _ _ read =>
    intro phrase hphrase
    obtain rfl := Option.some.inj hphrase
    exact ⟨_, Phrase.parse_of_parseExact read⟩

end Drafts

/-! ### The three ways -/

/-- A name and a phrase that can be read are kept as a seed, unless the name is taken, or there
are no more handles. -/
theorem Vault.importPhrase_cases {v : Vault} {name phrase : String} {entropy : Bytes}
    (named : isBlankName name = false) (read : Phrase.parse phrase = .ok entropy) :
    v.next.toNat + 1 < UInt32.size ∧
        v.importPhrase name phrase = .ok (⟨v.next⟩, v.withSeed ⟨name, entropy⟩) ∨
      (∃ s ∈ v.seeds.values, s.name = name) ∧
        v.importPhrase name phrase = .error (.duplicateName name) ∨
      UInt32.size ≤ v.next.toNat + 1 ∧ v.importPhrase name phrase = .error .overflow := by
  have hlength := Phrase.length_of_parse read
  have himport : v.importPhrase name phrase = v.importSeed name entropy := by
    rw [importPhrase, read]
  rw [himport]
  by_cases fresh : ∀ s ∈ v.seeds.values, s.name ≠ name
  · by_cases room : v.next.toNat + 1 < UInt32.size
    · exact .inl ⟨room, importSeed_eq_ok.2 ⟨named, hlength, fresh, room, rfl, rfl⟩⟩
    · refine .inr (.inr ⟨Nat.le_of_not_lt room, ?_⟩)
      rw [importSeed, if_neg (Bool.eq_false_iff.1 named), if_neg (not_not_intro hlength),
        if_neg (by simpa using fresh), if_neg room]
  · have taken : ∃ s ∈ v.seeds.values, s.name = name := by simpa using fresh
    refine .inr (.inl ⟨taken, ?_⟩)
    rw [importSeed, if_neg (Bool.eq_false_iff.1 named), if_neg (not_not_intro hlength),
      if_pos (by simpa using taken)]

/-- One more seed, and addresses of it; nothing else is new, and all that was is there. -/
structure Device.Gains (d : Device) (seed : Seed) (d' : Device) : Prop where
  registry : d'.registry = d.registry
  next : d'.vault.next.toNat = d.vault.next.toNat + 1
  seeds : d'.vault.seeds.entries = d.vault.seeds.entries ++ [(⟨d.vault.next⟩, seed)]
  others : d'.vault.others ⟨d.vault.next⟩ = d.vault.addresses

/-- Why a seed is not kept, and the device after it: it is as it was, but that a handle
may be gone. -/
inductive Device.Rejects (d : Device) (templates : List String) (seed : Seed) :
    VaultError → Device → Prop where
  /-- Another seed has the name. -/
  | taken {other : Seed} (there : other ∈ d.vault.seeds.values) (same : other.name = seed.name) :
      Rejects d templates seed (.duplicateName seed.name) d
  /-- The root address on some network cannot be created, as far as the addresses got; all of
  these are of the new seed. -/
  | root {e : Entry} {addresses : Table PublicKey AddressDetails} {f : VaultError}
      (room : d.vault.next.toNat + 1 < UInt32.size)
      (known : e ∈ d.registry.networks) (asked : "" ∈ Vault.defaultPaths e.specs templates)
      (others : Vault.others { d.vault.withSeed seed with addresses } ⟨d.vault.next⟩ =
        d.vault.addresses)
      (failed : Vault.createAddress { d.vault.withSeed seed with addresses } ⟨d.vault.next⟩ ""
        e.network e.specs = .error f)
      (reason : f = .key .invalidKey ∨ ∃ name, f = .keyCollision name) :
      Rejects d templates seed f { d with vault := { d.vault with next := d.vault.next + 1 } }

namespace Session

variable {s : Session} {d : Device} {origin : SeedOrigin} {name phrase : String} {entropy : Bytes}

section Evaluation

variable {v v' : Vault} {seed : SeedHandle}

theorem confirmSeed_of_ok {keys : List PublicKey}
    (kept : d.vault.importPhrase name phrase = .ok (seed, v))
    (created : v.populateDefaults seed d.registry.networks s.settings.defaultDerivations =
      (v', .ok keys)) :
    s.confirmSeed d name phrase = some (s.toIdle, { d with vault := v' }) := by
  rw [confirmSeed, kept]
  dsimp only
  rw [created]

theorem confirmSeed_of_error {f : VaultError}
    (kept : d.vault.importPhrase name phrase = .ok (seed, v))
    (failed : v.populateDefaults seed d.registry.networks s.settings.defaultDerivations =
      (v', .error f)) :
    s.confirmSeed d name phrase =
      some (s.fail (.vault f), { d with vault := (v'.delete seed).toOption.getD v' }) := by
  rw [confirmSeed, kept]
  dsimp only
  rw [failed]

end Evaluation

theorem confirmSeed_cases (sound : d.vault.Sound)
    (confirming : s.phase = .confirmingSeed origin name phrase)
    (named : Vault.isBlankName name = false) (read : Phrase.parse phrase = .ok entropy) :
    (∃ t d', s.confirmSeed d name phrase = some (t, d') ∧
        (t.phase = .idle ∧ d.Gains ⟨name, entropy⟩ d' ∨
          ∃ e, t.phase = .failed (.vault e) none ∧
            d.Rejects s.settings.defaultDerivations ⟨name, entropy⟩ e d')) ∨
      UInt32.size ≤ d.vault.next.toNat + 1 ∧ s.confirmSeed d name phrase = none := by
  have hfailed (e : VaultError) : (s.fail (.vault e)).phase = .failed (.vault e) none := by
    show Phase.failed (.vault e) s.phase.review? = _
    rw [confirming]
    rfl
  rcases d.vault.importPhrase_cases named read with ⟨room, kept⟩ | ⟨⟨other, there, same⟩, refused⟩ |
    ⟨past, stopped⟩
  · obtain ⟨addresses, hbook, hothers⟩ :=
      (d.vault.withSeed ⟨name, entropy⟩).exists_addresses_of_populateDefaults ⟨d.vault.next⟩
        d.registry.networks s.settings.defaultDerivations
    replace hothers := hothers.trans sound.others_next
    cases hresult : (d.vault.withSeed ⟨name, entropy⟩).populateDefaults ⟨d.vault.next⟩
      d.registry.networks s.settings.defaultDerivations with
    | mk v result =>
      rw [hresult] at hbook hothers
      obtain rfl : v = { d.vault.withSeed ⟨name, entropy⟩ with addresses } := hbook
      cases result with
      | ok keys =>
        exact .inl ⟨_, _, confirmSeed_of_ok kept hresult, .inl ⟨rfl, rfl,
          Vault.toNat_next_add_one room, sound.entries_withSeed _, hothers⟩⟩
      | error f =>
        obtain ⟨e, book, known, asked, others, hroot⟩ :=
          Vault.exists_root_of_populateDefaults (congrArg Prod.snd hresult)
        have reason := Vault.error_of_createAddress_root
          ((Table.find?_insert ..).trans (if_pos rfl)) (Phrase.length_of_parse read) hroot
        have hconfirm := confirmSeed_of_error kept hresult
        rw [sound.delete_withSeed hothers] at hconfirm
        exact .inl ⟨_, _, hconfirm, .inr ⟨f, hfailed _,
          .root room known asked (others.trans sound.others_next) hroot reason⟩⟩
  · refine .inl ⟨s.fail (.vault (.duplicateName name)), d, ?_,
      .inr ⟨_, hfailed _, .taken there same⟩⟩
    rw [confirmSeed, refused]
  · exact .inr ⟨past, confirmSeed_eq_none_iff.2 stopped⟩

theorem update_of_confirmSeed {t : Session} {d' : Device} {random : FixedBytes 32}
    (confirming : s.phase = .confirmingSeed origin name phrase)
    (ended : s.cleared.confirmSeed d name phrase = some (t, d')) :
    s.update d random .confirmSeed =
      .ok ({ t with digest := s.digest.fold Action.confirmSeed.hash }, d') := by
  have step := @Step.confirmSeed s.cleared d random origin name phrase t d' confirming ended
  exact step.update_eq (by rw [tag, confirming]; rfl)

end Session

/-- A confirmation does all or nothing. The draft is complete: a name that was typed, but
for the blanks around it, and a phrase that gives entropy. Either the session is idle
again, and its device has a new seed of them, with all that it had before, and no new
address of another seed. Or the session failed, and the device has the seeds and
addresses that it had, since the name is taken or a root address cannot be created. There
is no third way, unless as many seeds were to be kept as there are handles: then the
program may stop. -/
theorem confirmation_is_all_or_nothing (settings : SessionSettings) (log : List Turn) (s : Session)
    (d₀ d : Device) (origin : SeedOrigin) (name phrase : String) (random : FixedBytes 32)
    (imports : Nat) (run : Session.Run settings log s d₀)
    (confirming : s.phase = .confirmingSeed origin name phrase) (reached : d.ReachedAfter imports) :
    ∃ entropy, Drafts log origin ⟨some name, some phrase⟩ ∧ Phrase.parse phrase = .ok entropy ∧
      ((∃ s' d', s.update d random .confirmSeed = .ok (s', d') ∧
          (s'.phase = .idle ∧ d.Gains ⟨name, entropy⟩ d' ∨
            ∃ e, s'.phase = .failed (.vault e) none ∧
              d.Rejects s.settings.defaultDerivations ⟨name, entropy⟩ e d')) ∨
        UInt32.size ≤ imports + 1 ∧ s.update d random .confirmSeed = .error .overflow) := by
  have drafts : Drafts log origin ⟨some name, some phrase⟩ := by
    have hknown := run.accounted.known
    rw [confirming] at hknown
    exact hknown
  have named := drafts.isBlankName_eq name rfl
  obtain ⟨entropy, read⟩ := drafts.exists_parse phrase rfl
  refine ⟨entropy, drafts, read, ?_⟩
  rcases @Session.confirmSeed_cases s.cleared d origin name phrase entropy reached.reached.sound
    confirming named read with ⟨t, d', ended, hcases⟩ | ⟨past, stopped⟩
  · exact .inl ⟨_, d', Session.update_of_confirmSeed confirming ended, hcases⟩
  · refine .inr ⟨Nat.le_trans past (Nat.add_le_add_right reached.next_le 1), ?_⟩
    have happly : s.cleared.apply d random .confirmSeed = none := by
      unfold Session.apply
      rw [show s.cleared.phase = _ from confirming]
      exact stopped
    have accepted : s.tag.accepts Action.confirmSeed.kind = true := by
      rw [Session.tag, confirming]
      rfl
    rcases Session.update_of_accepts d random accepted with ⟨t, d', step, -⟩ | ⟨-, hupdate⟩
    · cases step.apply_eq.symm.trans happly
    · exact hupdate

/-! ### The sample seed once more -/

/-- Metadata of another network, with keys of another scheme. -/
def otherEntry : Entry where
  network := .fit 32 [8]
  metadata := { Review.sampleMetadata with specs := ⟨"Other", 42, 10, "UNIT", .sr25519⟩ }
  minSizes := #[1, 2]
  fault_eq := by decide
  sizes_eq := Review.minSizes_sampleMetadata

/-- The sample seed, with its root key on the other network. -/
def otherDevice (key : PublicKey) (registry : Registry) : Device where
  vault := sampleSeeds.setAddress key ⟨⟨0⟩, "sample", "", false, [otherEntry.network]⟩
  registry

/-- The metadata of both networks. -/
def bothRegistry : Registry :=
  ⟨⟨[(⟨Review.sampleEntry.network, 1⟩, Review.sampleEntry), (⟨otherEntry.network, 1⟩, otherEntry)]⟩⟩

/-- The words of the sample seed under another name. -/
def seedAgain : Seed := ⟨"again", List.replicate 16 0⟩

section Again

variable {k₁ k₂ : SecretKey} {registry : Registry}
  (first : SecretKey.derive (List.replicate 16 0) ⟨[], none⟩ .ed25519 = .ok k₁)
  (second : SecretKey.derive (List.replicate 16 0) ⟨[], none⟩ .sr25519 = .ok k₂)

include second in
theorem otherDevice_reached : (otherDevice k₂.publicKey registry).ReachedAfter 1 := by
  have hcreate : sampleSeeds.createAddress ⟨0⟩ "" otherEntry.network otherEntry.specs =
      .ok (k₂.publicKey, (otherDevice k₂.publicKey registry).vault) :=
    Vault.createAddress_eq_ok.2
      ⟨⟨[], none⟩, _, k₂, parse?_root_path, rfl, second, rfl, .inl ⟨rfl, rfl⟩⟩
  exact (sampleSeeds_reached.createAddress hcreate).loaded registry

/-- A run to the point where the words of the sample seed are to be kept under another name. -/
theorem exists_draft_again (d : Device) (reached : d.Reached)
    (free : (d.vault.seedByName "again").toBool = false) :
    ∃ (log : List Turn) (s : Session) (phrase : String), Session.Run {} log s d ∧
      s.phase = .confirmingSeed .generated "again" phrase ∧
        Phrase.parse phrase = .ok (List.replicate 16 0) := by
  have drawn : Vault.newPhrase (.fit 32 []) 12 = .ok (Phrase.render (List.replicate 16 0)) := by
    rw [Vault.newPhrase, if_pos (by decide)]
    rfl
  obtain ⟨s₁, h₁, hp₁, -⟩ := (@Session.Run.opened {} d reached).advance rfl
    (@Session.Step.newSeed _ d (.fit 32 []) 12 rfl)
  replace hp₁ : s₁.phase = .namingSeed (some (Phrase.render (List.replicate 16 0))) := by
    rw [hp₁, Session.newSeed, drawn]
  obtain ⟨s₂, h₂, hp₂, -⟩ := h₁.advance (by rw [Session.tag, hp₁]; rfl)
    (@Session.Step.nameSeed s₁.cleared d (.fit 32 []) _ " again " hp₁)
  refine ⟨_, s₂, _, h₂, ?_, Phrase.parse_render (by decide)⟩
  have htrim : Text.trim " again " = "again" := by decide
  rw [hp₂, Session.nameSeed, htrim, if_neg (by decide), if_neg (by rw [free]; decide)]

theorem importPhrase_again {phrase : String}
    (read : Phrase.parse phrase = .ok (List.replicate 16 0)) :
    (otherDevice k₂.publicKey registry).vault.importPhrase "again" phrase =
      .ok (⟨1⟩, (otherDevice k₂.publicKey registry).vault.withSeed seedAgain) := by
  have fresh : ∀ s ∈ sampleSeeds.seeds.values, s.name ≠ "again" := by decide
  exact Vault.importPhrase_eq_ok.2 ⟨_, read, Vault.importSeed_eq_ok.2
    ⟨by decide, by decide, fresh, (by decide : (1 : UInt32).toNat + 1 < UInt32.size), rfl, rfl⟩⟩

include first second

/-- The root key on the small network is new, whatever the other network asks for. -/
theorem exists_addresses_again (rest : List (Entry × String)) :
    let v := (otherDevice k₂.publicKey registry).vault.withSeed seedAgain
    ∃ addresses created,
      v.createAll ⟨1⟩ [] ((Review.sampleEntry, "") :: (Review.sampleEntry, "//sample") :: rest) =
          Vault.createAll { v with addresses } ⟨1⟩ created rest ∧
        (∃ d, Vault.lookup { v with addresses } k₁.publicKey = some d ∧ d.seed = ⟨1⟩) ∧
          ∃ d, Vault.lookup { v with addresses } k₂.publicKey = some d ∧ d.seed = ⟨0⟩ ∧
            d.seedName = "sample" := by
  intro v
  have hne : k₂.publicKey ≠ k₁.publicKey := fun heq => by
    have hscheme := congrArg PublicKey.scheme heq
    rw [SecretKey.scheme_of_derive first, SecretKey.scheme_of_derive second] at hscheme
    cases hscheme
  have listed : v.lookup k₂.publicKey = some ⟨⟨0⟩, "sample", "", false, [otherEntry.network]⟩ :=
    (sampleSeeds.lookup_setAddress ..).trans (if_pos rfl)
  have new : v.lookup k₁.publicKey = none := (sampleSeeds.lookup_setAddress ..).trans (if_neg hne)
  have hroot : v.createAddress ⟨1⟩ "" Review.sampleEntry.network Review.sampleEntry.specs =
      .ok (k₁.publicKey, v.setAddress k₁.publicKey
        ⟨⟨1⟩, "again", "", false, [Review.sampleEntry.network]⟩) :=
    Vault.createAddress_eq_ok.2
      ⟨⟨[], none⟩, _, k₁, parse?_root_path, rfl, first, rfl, .inl ⟨new, rfl⟩⟩
  obtain ⟨addresses, created, hrest, still⟩ :=
    @Vault.exists_createAll_below (v.setAddress k₁.publicKey
      ⟨⟨1⟩, "again", "", false, [Review.sampleEntry.network]⟩) ⟨1⟩ [k₁.publicKey]
      Review.sampleEntry "//sample" (by decide) rest
  obtain ⟨networks₁, h₁⟩ := still _ _ ((v.lookup_setAddress ..).trans (if_pos rfl))
  obtain ⟨networks₂, h₂⟩ :=
    still _ _ ((v.lookup_setAddress ..).trans ((if_neg hne.symm).trans listed))
  refine ⟨addresses, created, ?_, ⟨_, h₁, rfl⟩, ⟨_, h₂, rfl, rfl⟩⟩
  rw [Vault.createAll, hroot]
  exact hrest

/-- Without metadata of the other network all goes well. -/
theorem populateDefaults_again : ∃ v keys d,
      ((otherDevice k₂.publicKey Review.sampleRegistry).vault.withSeed seedAgain).populateDefaults
        ⟨1⟩ (otherDevice k₂.publicKey Review.sampleRegistry).registry.networks
        ({} : SessionSettings).defaultDerivations = (v, .ok keys) ∧
      v.lookup k₁.publicKey = some d ∧ d.seed = ⟨1⟩ := by
  obtain ⟨addresses, created, hall, ⟨d, listed, hseed⟩, -⟩ :=
    @exists_addresses_again k₁ k₂ Review.sampleRegistry first second []
  exact ⟨_, created.reverse, d, hall, listed, hseed⟩

/-- With them the root key on the other network fails, when that on the small one is there. -/
theorem populateDefaults_again_fails : ∃ v d,
      ((otherDevice k₂.publicKey bothRegistry).vault.withSeed seedAgain).populateDefaults
        ⟨1⟩ (otherDevice k₂.publicKey bothRegistry).registry.networks
        ({} : SessionSettings).defaultDerivations = (v, .error (.keyCollision "sample")) ∧
      v.lookup k₁.publicKey = some d ∧ d.seed = ⟨1⟩ := by
  obtain ⟨addresses, created, hall, ⟨d, listed, hseed⟩, taken, hlisted, htaken, hname⟩ :=
    @exists_addresses_again k₁ k₂ bothRegistry first second
      [(otherEntry, ""), (otherEntry, "//other")]
  have other : taken.seed ≠ ⟨1⟩ := by
    rw [htaken]
    decide
  have hroot (network : NetworkId) :=
    @Vault.createAddress_of_taken _ _ _ _ _ _ network otherEntry.specs _ parse?_root_path rfl second
      hlisted (.inl other)
  refine ⟨_, d, Eq.trans hall ?_, listed, hseed⟩
  rw [Vault.createAll, hroot, hname]
  rfl

end Again

/-- Where the root key is listed nowhere on the way, the words of the sample seed are kept once
more. Where another network has it, the addresses that were created are taken back. -/
theorem sample_seed_confirmed_again :
    (∃ (log : List Turn) (s s' : Session) (d d' : Device) (phrase : String) (key : PublicKey)
      (details : AddressDetails), Session.Run {} log s d ∧ d.ReachedAfter 1 ∧
        s.phase = .confirmingSeed .generated "again" phrase ∧
        s.update d (.fit 32 []) .confirmSeed = .ok (s', d') ∧ s'.phase = .idle ∧
        d.Gains seedAgain d' ∧ d.vault.addresses.entries.length = 1 ∧
        d'.vault.lookup key = some details ∧ details.seed = ⟨1⟩) ∧
    ∃ (log : List Turn) (s s' : Session) (d d' : Device) (phrase : String) (key : PublicKey)
      (details : AddressDetails), Session.Run {} log s d ∧ d.ReachedAfter 1 ∧
        s.phase = .confirmingSeed .generated "again" phrase ∧
        s.update d (.fit 32 []) .confirmSeed = .ok (s', d') ∧
        s'.phase = .failed (.vault (.keyCollision "sample")) none ∧
        ((d.vault.withSeed seedAgain).populateDefaults ⟨1⟩
          d.registry.networks ({} : SessionSettings).defaultDerivations).1.lookup key = some details ∧
        details.seed = ⟨1⟩ ∧ d'.vault.seeds = d.vault.seeds ∧
        d'.vault.addresses = d.vault.addresses ∧ d'.vault.next = 2 := by
  obtain ⟨k₁, first⟩ : ∃ k, SecretKey.derive (List.replicate 16 0) ⟨[], none⟩ .ed25519 = .ok k :=
    ⟨_, rfl⟩
  obtain ⟨k₂, second⟩ : ∃ k, SecretKey.derive (List.replicate 16 0) ⟨[], none⟩ .sr25519 = .ok k :=
    ⟨_, rfl⟩
  have free : (sampleSeeds.seedByName "again").toBool = false := by decide
  refine ⟨?_, ?_⟩
  · have reached : (otherDevice k₂.publicKey Review.sampleRegistry).ReachedAfter 1 :=
      otherDevice_reached second
    obtain ⟨v, keys, details, created, listed, hseed⟩ := populateDefaults_again first second
    obtain ⟨log, s, phrase, run, confirming, read⟩ := exists_draft_again _ reached.reached free
    obtain ⟨entropy, -, read', ⟨s', d', hupdate, hcases⟩ | ⟨past, -⟩⟩ :=
      confirmation_is_all_or_nothing _ log s _ _ _ _ phrase (.fit 32 []) 1 run confirming reached
    · obtain rfl := Except.ok.inj (read.symm.trans read')
      have ended := Session.confirmSeed_of_ok (importPhrase_again read)
        (s := s.cleared) (by rw [show s.cleared.settings = _ from run.settings_eq]; exact created)
      obtain ⟨rfl, rfl⟩ := Prod.mk.inj (Except.ok.inj (hupdate.symm.trans
        (Session.update_of_confirmSeed confirming ended)))
      rcases hcases with ⟨idle, gains⟩ | ⟨e, failed, -⟩
      · exact ⟨log, s, _, _, _, phrase, _, details, run, reached, confirming, hupdate, idle, gains,
          rfl, listed, hseed⟩
      · cases failed
    · exact absurd past (by decide)
  · have reached : (otherDevice k₂.publicKey bothRegistry).ReachedAfter 1 :=
      otherDevice_reached second
    obtain ⟨v, details, failed, listed, hseed⟩ := populateDefaults_again_fails first second
    obtain ⟨log, s, phrase, run, confirming, read⟩ := exists_draft_again _ reached.reached free
    obtain ⟨entropy, -, read', ⟨s', d', hupdate, hcases⟩ | ⟨past, -⟩⟩ :=
      confirmation_is_all_or_nothing _ log s _ _ _ _ phrase (.fit 32 []) 1 run confirming reached
    · obtain rfl := Except.ok.inj (read.symm.trans read')
      have ended := Session.confirmSeed_of_error (importPhrase_again read)
        (s := s.cleared) (by rw [show s.cleared.settings = _ from run.settings_eq]; exact failed)
      obtain ⟨hs, -⟩ := Prod.mk.inj (Except.ok.inj (hupdate.symm.trans
        (Session.update_of_confirmSeed confirming ended)))
      have hphase : s'.phase = .failed (.vault (.keyCollision "sample")) none := by
        rw [hs]
        show Phase.failed _ s.phase.review? = _
        rw [confirming]
        rfl
      rcases hcases with ⟨idle, -⟩ | ⟨e, hfailed, rejects⟩
      · cases idle.symm.trans hphase
      · cases hfailed.symm.trans hphase
        cases rejects with
        | root =>
          exact ⟨log, s, s', _, _, phrase, k₁.publicKey, details, run, reached, confirming, hupdate,
            hphase, by rw [failed]; exact listed, hseed, rfl, rfl, rfl⟩
    · exact absurd past (by decide)

end ColdSigner
