import ColdSigner.Proofs.Session.Engine
import ColdSigner.Proofs.Session.Reached
import ColdSigner.Proofs.Vault.Lasting

/-! Runs of a session, and what they say of the flows that end with a seed.

A run is a history on a device that came about, which others use in between; of every
action it tells what that could draw on, the random bytes included. A session in a flow
knows what was drafted in this flow (`Drafts`), or which seed is to be exported
(`AsksExport`), and what it shows as exported is the phrase of that seed (`Exports`).
Nothing outlives its flow. -/
namespace ColdSigner

/-! ### Other uses of a device -/

/-- What others do to a device: they ask its vault, load metadata, or act in sessions of
their own. -/
inductive Device.Used (d : Device) : Device → Prop where
  | asked (op : Vault.Operation) : Used d { d with vault := (d.vault.run op).2 }
  | loaded (registry : Registry) : Used d { d with registry }
  | acted {d' : Device} {s s' : Session} {random : FixedBytes 32} {a : Action}
      (done : s.update d random a = .ok (s', d')) : Used d d'

namespace Device.Used

variable {d d' : Device}

theorem reached (used : d.Used d') (h : d.Reached) : d'.Reached := by
  cases used with
  | asked op => exact h.asked op
  | loaded registry => exact h.loaded registry
  | acted done => exact h.acted done

theorem changes (used : d.Used d') : ∃ events, d.vault.Changes events d'.vault := by
  cases used with
  | asked op =>
    obtain ⟨events, hchanges, -⟩ := Vault.changes_run d.vault op
    exact ⟨events, hchanges⟩
  | loaded => exact ⟨[], .none _⟩
  | acted done =>
    obtain ⟨t, step, -⟩ := Session.update_eq_ok done
    obtain ⟨events, hchanges, -⟩ := step.vault_changes
    exact ⟨events, hchanges⟩

end Device.Used

/-! ### Runs -/

/-- An accepted action, with the random bytes at its hand and the device as it was. -/
structure Turn where
  device : Device
  random : FixedBytes 32
  action : Action

/-- The sessions and devices that come of a new session, with the actions it accepted. -/
inductive Session.Run (settings : SessionSettings) : List Turn → Session → Device → Prop where
  | opened {d : Device} (reached : d.Reached) : Run settings [] { settings } d
  | acted {log : List Turn} {s s' : Session} {d d' : Device} {random : FixedBytes 32} {a : Action}
      (before : Run settings log s d) (done : s.update d random a = .ok (s', d')) :
      Run settings (log ++ [⟨d, random, a⟩]) s' d'
  | shared {log : List Turn} {s : Session} {d d' : Device} (before : Run settings log s d)
      (used : d.Used d') : Run settings log s d'

/-! ### What a log says of a flow -/

/-- A name that can be given to a new seed: it is not blank, and no seed has it. -/
def Vault.Offers (v : Vault) (name : String) : Prop :=
  (Text.trim name).isEmpty = false ∧ (v.seedByName (Text.trim name)).toBool = false

/-- A log that ends in a flow for a seed, of which so much is known. A phrase is drawn at
the start, or typed at the end; a name is taken in between. -/
inductive Drafts : List Turn → SeedOrigin → SeedDraft → Prop where
  | generated {log : List Turn} {t : Turn} {words : Nat} {phrase : String}
      (action : t.action = .newSeed words) (drawn : Vault.newPhrase t.random words = .ok phrase) :
      Drafts (log ++ [t]) .generated ⟨none, some phrase⟩
  | recovered {log : List Turn} {t : Turn} (action : t.action = .recoverSeed) :
      Drafts (log ++ [t]) .recovered ⟨none, none⟩
  | named {log : List Turn} {t : Turn} {origin : SeedOrigin} {phrase : Option String} {name : String}
      (before : Drafts log origin ⟨none, phrase⟩) (action : t.action = .setSeedName name)
      (offered : t.device.vault.Offers name) :
      Drafts (log ++ [t]) origin ⟨some (Text.trim name), phrase⟩
  | misnamed {log : List Turn} {t : Turn} {origin : SeedOrigin} {phrase : Option String} {name : String}
      (before : Drafts log origin ⟨none, phrase⟩) (action : t.action = .setSeedName name)
      (refused : ¬ t.device.vault.Offers name) : Drafts (log ++ [t]) origin ⟨none, phrase⟩
  | typed {log : List Turn} {t : Turn} {name phrase : String} {entropy : Bytes}
      (before : Drafts log .recovered ⟨some name, none⟩) (action : t.action = .setSeedPhrase phrase)
      (read : Phrase.parseExact (Text.trimChars phrase.toList) = .ok entropy) :
      Drafts (log ++ [t]) .recovered ⟨some name, some phrase⟩
  | mistyped {log : List Turn} {t : Turn} {name phrase : String} {e : PhraseError}
      (before : Drafts log .recovered ⟨some name, none⟩) (action : t.action = .setSeedPhrase phrase)
      (refused : Phrase.parseExact (Text.trimChars phrase.toList) = .error e) :
      Drafts (log ++ [t]) .recovered ⟨some name, none⟩

/-- A log that ends with the request to export the seed of a name, or with proofs after
it that were not verified. -/
inductive AsksExport : List Turn → String → SeedHandle → Seed → Prop where
  | asked {log : List Turn} {t : Turn} {name : String} {h : SeedHandle} {seed : Seed}
      (action : t.action = .exportSeed name) (found : t.device.vault.seedByName name = .ok h)
      (live : t.device.vault.seeds.find? h = some seed) (named : seed.name = name) :
      AsksExport (log ++ [t]) name h seed
  | refused {log : List Turn} {t : Turn} {name : String} {h : SeedHandle} {seed : Seed} {proof : Bytes}
      {password : Option String} (before : AsksExport log name h seed)
      (action : t.action = .authenticate proof password)
      (unverified : t.device.vault.authenticator.verifies proof = false) :
      AsksExport (log ++ [t]) name h seed

/-- A log that ends with an authentication, with a proof that was verified, of a request
to export a seed: this is its phrase. -/
inductive Exports : List Turn → String → Prop where
  | authenticated {log : List Turn} {t : Turn} {name : String} {h : SeedHandle} {seed : Seed}
      {proof : Bytes} {password : Option String} (asked : AsksExport log name h seed)
      (action : t.action = .authenticate proof password)
      (fresh : t.device.vault.authenticator.verifies proof = true) :
      Exports (log ++ [t]) (Phrase.render seed.entropy)

/-! ### What each phase keeps -/

/-- What the log says of a session in a phase of a flow that ends with a seed. -/
def Phase.Known (log : List Turn) (v : Vault) : Phase → Prop
  | .namingSeed (some phrase) => Drafts log .generated ⟨none, some phrase⟩
  | .namingSeed none => Drafts log .recovered ⟨none, none⟩
  | .enteringPhrase name => Drafts log .recovered ⟨some name, none⟩
  | .confirmingSeed origin name phrase => Drafts log origin ⟨some name, some phrase⟩
  | .exporting h => ∃ name seed, AsksExport log name h seed ∧ v.Lasts h seed
  | _ => True

/-- What is known in its phase, and what it exported last, a session has from its log. -/
structure Session.Accounted (log : List Turn) (s : Session) (v : Vault) : Prop where
  known : s.phase.Known log v
  exported : ∀ p, s.exported = some p → s.phase = .idle ∧ Exports log p

namespace Session

variable {settings : SessionSettings} {log : List Turn} {s t : Session} {d d' : Device} {v v' : Vault}
  {random : FixedBytes 32} {a : Action}

theorem Accounted.quiet {p : Phase} (phase : s.phase = p) (known : p.Known log v)
    (hidden : s.exported = none) : s.Accounted log v :=
  ⟨phase ▸ known, fun p h => by rw [hidden] at h; cases h⟩

theorem nameSeed_accounted {phrase : Option String} {name : String} (hidden : s.exported = none)
    (naming : s.phase = .namingSeed phrase) (h : s.phase.Known log d.vault) :
    (s.nameSeed d phrase name).Accounted (log ++ [⟨d, random, .setSeedName name⟩]) d.vault := by
  rw [naming] at h
  have hrefused (refused : ¬ d.vault.Offers name) (e : VaultError) :
      (s.refuse e).Accounted (log ++ [⟨d, random, .setSeedName name⟩]) d.vault := by
    cases phrase <;> exact .quiet naming (.misnamed h rfl refused) hidden
  unfold nameSeed
  dsimp only
  split
  · next blank => exact hrefused (fun offered => by simp [offered.1] at blank) _
  · next named =>
    split
    · next taken => exact hrefused (fun offered => by simp [offered.2] at taken) _
    · next free =>
      have offered : d.vault.Offers name := ⟨Bool.eq_false_iff.2 named, Bool.eq_false_iff.2 free⟩
      cases phrase <;> exact .quiet rfl (.named h rfl offered) hidden

theorem enterPhrase_accounted {name phrase : String} (hidden : s.exported = none)
    (entering : s.phase = .enteringPhrase name) (h : s.phase.Known log d.vault) :
    (s.enterPhrase name phrase).Accounted (log ++ [⟨d, random, .setSeedPhrase phrase⟩]) d.vault := by
  rw [entering] at h
  unfold enterPhrase
  split
  · next read => exact .quiet rfl (.typed h rfl read) hidden
  · next refused => exact .quiet entering (.mistyped h rfl refused) hidden

/-- Only a proof that is not verified may be tried again. -/
theorem not_verifies_of_exportPhrase {h : SeedHandle} {proof : Bytes} {e : VaultError}
    (failed : v.exportPhrase h proof = .error e) (retryable : e.isRetryable = true) :
    v.authenticator.verifies proof = false := by
  refine Bool.eq_false_iff.2 fun verified => ?_
  rw [Vault.exportPhrase, Vault.exportEntropy, Vault.authenticate_eq_ok.2 verified] at failed
  cases live : v.seed h with
  | ok s =>
    rw [live] at failed
    cases failed
  | error f =>
    rw [live] at failed
    obtain rfl : f = e := Except.error.inj failed
    unfold Vault.seed at live
    split at live
    · cases live
    · obtain rfl := Except.error.inj live
      cases retryable

theorem exportSeed_accounted {h : SeedHandle} {proof : Bytes} {password : Option String}
    (hidden : s.exported = none) (exporting : s.phase = .exporting h)
    (known : s.phase.Known log d.vault) :
    (s.exportSeed d h proof).Accounted (log ++ [⟨d, random, .authenticate proof password⟩])
      d.vault := by
  rw [exporting] at known
  obtain ⟨name, seed, asked, lasts⟩ := known
  unfold exportSeed
  split
  · next phrase hphrase =>
    obtain ⟨verified, s', live, rfl⟩ := Vault.exportPhrase_eq_ok.1 hphrase
    refine ⟨trivial, fun p hp => ⟨rfl, ?_⟩⟩
    obtain rfl := Option.some.inj hp
    rw [lasts.2 s' live]
    exact .authenticated asked rfl verified
  · next e he =>
    split
    · next retryable =>
      have unverified := not_verifies_of_exportPhrase he retryable
      exact .quiet exporting ⟨name, seed, .refused asked rfl unverified, lasts⟩ hidden
    · exact .quiet rfl trivial hidden

theorem startExport_accounted {name : String} (sound : d.vault.Sound) (hidden : s.exported = none)
    (idle : s.phase = .idle) :
    (s.startExport d name).Accounted (log ++ [⟨d, random, .exportSeed name⟩]) d.vault := by
  unfold startExport
  split
  · next h found =>
    obtain ⟨seed, live, named⟩ := sound.exists_of_seedByName found
    exact .quiet rfl ⟨name, seed, .asked rfl found live named, sound.lasts live⟩ rfl
  · exact .quiet idle trivial hidden

theorem newSeed_accounted {words : Nat} (hidden : s.exported = none) (idle : s.phase = .idle) :
    (s.newSeed random words).Accounted (log ++ [⟨d, random, .newSeed words⟩]) v := by
  unfold newSeed
  split
  · next phrase drawn => exact .quiet rfl (.generated rfl drawn) rfl
  · exact .quiet idle trivial hidden

/-- On the way to a signature nothing is known of seeds, and nothing comes to be. -/
theorem known_of_isRequest {p : Phase} (request : p.isRequest = true) : p.Known log v := by
  cases p with
  | namingSeed | enteringPhrase | confirmingSeed | exporting => cases request
  | _ => trivial

/-- A step from a request leads to one, or to the end of it. -/
theorem Step.accounted_of_isRequest (step : Step s d random a t d') (hidden : s.exported = none)
    (request : s.phase.isRequest = true) : t.Accounted log v := by
  have hkept {t : Session} (same : t.phase = s.phase) (hidden : t.exported = none) :
      t.Accounted log v := .quiet same (known_of_isRequest request) hidden
  cases step with
  | scanFrame =>
    unfold Session.scanFrame
    split
    · exact .quiet rfl trivial hidden
    · dsimp only
      split
      · split <;> exact .quiet rfl trivial hidden
      · exact hkept rfl hidden
  | decode =>
    unfold Session.decode
    split
    · exact .quiet rfl trivial hidden
    · split
      · split <;> exact .quiet rfl trivial hidden
      · exact .quiet rfl trivial hidden
  | approve =>
    unfold Session.approve
    split
    · exact .quiet rfl trivial hidden
    · split
      · exact .quiet rfl trivial rfl
      · exact .quiet rfl trivial hidden
  | sign _ ended =>
    cases signs_of_sign ended with
    | retried => exact hkept rfl hidden
    | unlisted | failed | signed | unanswered => exact .quiet rfl trivial hidden
  | leave => exact .quiet rfl trivial rfl
  | startScan idle | newSeed idle | recoverSeed idle | startExport idle | deleteSeed idle
  | nameSeed idle | enterPhrase idle | confirmSeed idle | exportSeed idle =>
    rw [idle] at request
    cases request

/-- Every step keeps account. -/
theorem Step.accounted (step : Step s d random a t d') (sound : d.vault.Sound)
    (hidden : s.exported = none) (h : s.phase.Known log d.vault) :
    t.Accounted (log ++ [⟨d, random, a⟩]) d'.vault := by
  cases hrequest : s.phase.isRequest with
  | true => exact step.accounted_of_isRequest hidden hrequest
  | false =>
    cases step with
    | startScan => exact .quiet rfl trivial rfl
    | newSeed idle => exact newSeed_accounted hidden idle
    | recoverSeed => exact .quiet rfl (.recovered rfl) rfl
    | nameSeed naming => exact nameSeed_accounted hidden naming h
    | enterPhrase entering => exact enterPhrase_accounted hidden entering h
    | confirmSeed _ ended =>
      cases confirms_of_confirmSeed ended with
      | kept => exact .quiet rfl trivial rfl
      | refused | takenBack => exact .quiet rfl trivial hidden
    | startExport idle => exact startExport_accounted sound hidden idle
    | exportSeed exporting => exact exportSeed_accounted hidden exporting h
    | deleteSeed idle =>
      unfold Session.deleteSeed
      dsimp only
      split
      · exact .quiet rfl trivial rfl
      · exact .quiet idle trivial hidden
    | leave => exact .quiet rfl trivial rfl
    | scanFrame request | decode request | approve request | sign request =>
      rw [request] at hrequest
      cases hrequest

theorem Accounted.changes {events : List Vault.Event} (h : s.Accounted log v)
    (changes : v.Changes events v') : s.Accounted log v' := by
  refine ⟨?_, h.exported⟩
  have hknown := h.known
  cases hphase : s.phase with
  | exporting seed =>
    rw [hphase] at hknown
    obtain ⟨name, seed, asked, lasts⟩ := hknown
    exact ⟨name, seed, asked, changes.lasts lasts⟩
  | namingSeed phrase =>
    rw [hphase] at hknown
    cases phrase <;> exact hknown
  | _ =>
    rw [hphase] at hknown
    exact hknown

namespace Run

theorem reached (h : Run settings log s d) : d.Reached := by
  induction h with
  | opened reached => exact reached
  | acted _ done ih => exact ih.acted done
  | shared _ used ih => exact used.reached ih

/-- The settings of a session are those it was opened with. -/
theorem settings_eq (h : Run settings log s d) : s.settings = settings := by
  induction h with
  | opened => rfl
  | acted _ done ih =>
    obtain ⟨t, step, rfl⟩ := update_eq_ok done
    exact step.settings_eq.trans ih
  | shared _ _ ih => exact ih

/-- Whatever a session and the others do, the log accounts for what it knows. -/
theorem accounted (h : Run settings log s d) : s.Accounted log d.vault := by
  induction h with
  | opened => exact .quiet rfl trivial rfl
  | acted before done ih =>
    obtain ⟨t, step, rfl⟩ := update_eq_ok done
    obtain ⟨known, exported⟩ := step.accounted before.reached.sound rfl ih.known
    exact ⟨known, exported⟩
  | shared _ used ih =>
    obtain ⟨events, changes⟩ := used.changes
    exact ih.changes changes

/-- An accepted action makes a run longer. -/
theorem advance (h : Run settings log s d) (accepted : s.tag.accepts a.kind = true)
    (step : Step s.cleared d random a t d') :
    ∃ s', Run settings (log ++ [⟨d, random, a⟩]) s' d' ∧ s'.phase = t.phase ∧
      s'.exported = t.exported :=
  ⟨_, .acted h (step.update_eq accepted), rfl, rfl⟩

end Run

end Session

end ColdSigner
