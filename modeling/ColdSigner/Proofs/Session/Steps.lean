import ColdSigner.Proofs.Vault.Changes
import ColdSigner.Proofs.Wire.Counting
import ColdSigner.Session.Update

/-! What an accepted action does.

`Step` has one constructor for each pair of a phase and an action that it accepts,
so that what holds of sessions is proved by cases on it, without a look at the
pairs that are refused. Two of them can stop the program (`pastWords_of_apply`): a signature
is answered at a capacity near the largest word, or a seed is kept after all handles were
given out. `Step.change` says of all of them what they can make of a
session; what every step keeps is read off it. -/
namespace ColdSigner

/-! ### The frames of an answer -/

section Answers

variable {signature : Signature} {capacity : Nat}

theorem Wire.Response.length_encode (signature : Signature) :
    (encode ⟨signature.scheme, signature.bytes⟩).length = signature.scheme.signatureLength + 1 :=
  congrArg (· + 1) signature.length_bytes

/-- An answer that starts with the byte of `ed25519` is cut at every capacity. The others are
their own frames at any capacity near the largest word. -/
theorem encode_answer_eq_overflow_iff :
    Wire.Frame.encode (Wire.Response.encode ⟨signature.scheme, signature.bytes⟩) capacity =
        .error .overflow ↔
      signature.scheme = .ed25519 ∧ Wire.Frame.wordSize < capacity + 65 := by
  have hword : Wire.Frame.wordSize = 18446744073709551616 := rfl
  have hheader : Wire.FrameHeader.length = 5 := rfl
  by_cases room : Wire.FrameHeader.length < capacity
  · rw [Wire.Frame.encode_eq_overflow_iff room, Wire.Response.length_encode, ← Bool.not_eq_true,
      Wire.Frame.isSingle_eq_true, Wire.Response.length_encode]
    cases signature with
    | ed25519 s =>
      simp [Wire.Response.encode, Signature.scheme, Scheme.toByte, Scheme.signatureLength,
        Wire.FrameHeader.multipart, Nat.add_comm]
    | sr25519 s | ecdsa s =>
      simp [Wire.Response.encode, Signature.scheme, Scheme.toByte, Scheme.signatureLength,
        Wire.FrameHeader.multipart]
      omega
  · rw [Wire.Frame.encode, if_pos (Nat.le_of_not_lt room)]
    have hcapacity : ¬ Wire.Frame.wordSize < capacity + 65 := by omega
    simp [hcapacity]

/-- Every signature fits into frames that have room for more than a header and can be counted. -/
theorem exists_answer (signature : Signature) (room : Wire.FrameHeader.length < capacity)
    (counted : signature.scheme = .ed25519 → capacity + 65 ≤ Wire.Frame.wordSize) : ∃ frames,
      Wire.Frame.encode (Wire.Response.encode ⟨signature.scheme, signature.bytes⟩) capacity =
        .ok frames := by
  refine (Wire.Frame.exists_encode_iff room).2 ?_
  cases single : Wire.Frame.isSingle capacity
      (Wire.Response.encode ⟨signature.scheme, signature.bytes⟩) with
  | true => exact .inl rfl
  | false =>
    refine .inr ⟨Nat.le_of_not_lt fun past => ?_, ?_⟩
    · obtain ⟨hscheme, hpast⟩ := encode_answer_eq_overflow_iff.1
        ((Wire.Frame.encode_eq_overflow_iff room).2 ⟨single, past⟩)
      exact Nat.not_lt.2 (counted hscheme) hpast
    · have hmost : signature.scheme.signatureLength ≤ 65 := by
        cases signature.scheme <;> decide
      have hchecksum : Wire.Checksum.length = 4 := rfl
      rw [Wire.Frame.length_cut room, Wire.Response.length_encode]
      refine Nat.div_lt_of_lt_mul ?_
      unfold UInt16.size
      omega

theorem SecretKey.scheme_sign (k : SecretKey) (message : Bytes) :
    (k.sign message).scheme = k.publicKey.scheme := by
  cases k <;> rfl

theorem Vault.scheme_of_sign {v : Vault} {key : DerivedKey} {password : Option String}
    {proof message : Bytes} (signed : v.sign key password proof message = .ok signature) :
    signature.scheme = key.key.scheme := by
  obtain ⟨-, -, -, -, k, -, -, -, hkey, rfl⟩ := sign_eq_ok.1 signed
  rw [k.scheme_sign, hkey]

end Answers

/-! ### Signatures and seeds -/

namespace Session

variable {s t : Session} {d d' : Device}

/-- How an attempt to sign ends, if it does not stop the program. -/
inductive Signs (s : Session) (d : Device) (cards : List Card) (r : Review.SigningRequest)
    (proof : Bytes) (password : Option String) : Session → Prop where
  | unlisted (gone : d.vault.lookupOn r.signer r.network = none) :
      Signs s d cards r proof password (s.fail (.vault .unknownAddress))
  | retried {details : AddressDetails} {e : VaultError}
      (enabled : d.vault.lookupOn r.signer r.network = some details)
      (failed : d.vault.sign (details.derivedKey r.signer) password proof r.payload = .error e)
      (retryable : e.isRetryable = true) : Signs s d cards r proof password (s.retry e)
  | failed {details : AddressDetails} {e : VaultError}
      (enabled : d.vault.lookupOn r.signer r.network = some details)
      (failed : d.vault.sign (details.derivedKey r.signer) password proof r.payload = .error e)
      (final : e.isRetryable = false) : Signs s d cards r proof password (s.fail (.vault e))
  | signed {details : AddressDetails} {signature : Signature} {frames : List Bytes}
      (enabled : d.vault.lookupOn r.signer r.network = some details)
      (signed : d.vault.sign (details.derivedKey r.signer) password proof r.payload = .ok signature)
      (answered : s.answerFrames signature = .ok frames) :
      Signs s d cards r proof password { s with phase := .signed cards r signature frames }
  | unanswered {details : AddressDetails} {signature : Signature} {e : Wire.Error}
      (enabled : d.vault.lookupOn r.signer r.network = some details)
      (signed : d.vault.sign (details.derivedKey r.signer) password proof r.payload = .ok signature)
      (unanswered : s.answerFrames signature = .error e) :
      Signs s d cards r proof password (s.fail (.transport e))

theorem signs_of_sign {cards : List Card} {r : Review.SigningRequest} {proof : Bytes}
    {password : Option String} (ended : s.sign d cards r proof password = some t) :
    Signs s d cards r proof password t := by
  unfold sign at ended
  split at ended
  · next gone =>
    cases ended
    exact .unlisted gone
  · next details enabled =>
    split at ended
    · next e failed =>
      cases ended
      split
      · next retryable => exact .retried enabled failed retryable
      · next final => exact .failed enabled failed (Bool.eq_false_iff.2 final)
    · next signature signed =>
      split at ended
      · next frames answered =>
        cases ended
        exact .signed enabled signed answered
      · cases ended
      · next e _ unanswered =>
        cases ended
        exact .unanswered enabled signed unanswered

/-- How a confirmation ends, if it does not stop the program. -/
inductive Confirms (s : Session) (d : Device) (name phrase : String) : Session → Device → Prop where
  | refused {e : VaultError} (refused : d.vault.importPhrase name phrase = .error e) :
      Confirms s d name phrase (s.fail (.vault e)) d
  | kept {seed : SeedHandle} {v v' : Vault} {keys : List PublicKey}
      (kept : d.vault.importPhrase name phrase = .ok (seed, v))
      (created : v.populateDefaults seed d.registry.networks s.settings.defaultDerivations =
        (v', .ok keys)) :
      Confirms s d name phrase s.toIdle { d with vault := v' }
  | takenBack {seed : SeedHandle} {v v' : Vault} {e : VaultError}
      (kept : d.vault.importPhrase name phrase = .ok (seed, v))
      (failed : v.populateDefaults seed d.registry.networks s.settings.defaultDerivations =
        (v', .error e)) :
      Confirms s d name phrase (s.fail (.vault e))
        { d with vault := (v'.delete seed).toOption.getD v' }

theorem confirms_of_confirmSeed {name phrase : String}
    (ended : s.confirmSeed d name phrase = some (t, d')) : Confirms s d name phrase t d' := by
  unfold confirmSeed at ended
  split at ended
  · cases ended
  · next e _ refused =>
    cases ended
    exact .refused refused
  · next seed v kept =>
    split at ended
    · next v' keys created =>
      cases ended
      exact .kept kept created
    · next v' e failed =>
      cases ended
      exact .takenBack kept failed

end Session

/-! ### Steps -/

/-- Whether a request is on its way, or a signature the end of it. -/
def Phase.isRequest : Phase → Bool
  | .awaitingScan | .decoding _ | .reviewing _ | .authenticating .. | .signed .. => true
  | _ => false

namespace Session

/-- An action that session `s` accepts leads it to another session and device. -/
inductive Step (s : Session) (d : Device) (random : FixedBytes 32) :
    Action → Session → Device → Prop where
  | startScan (idle : s.phase = .idle) :
      Step s d random .startScan { s.toIdle with phase := .awaitingScan } d
  | scanFrame {frame : Bytes} (scanning : s.phase = .awaitingScan) :
      Step s d random (.scanFrame frame) (s.scanFrame frame) d
  | decode {payload : Bytes} (decoding : s.phase = .decoding payload) :
      Step s d random .decode (s.decode d payload) d
  | approve {review : Review} (reviewing : s.phase = .reviewing review) :
      Step s d random .approve (s.approve d review).1 (s.approve d review).2
  | sign {cards : List Card} {r : Review.SigningRequest} {proof : Bytes} {password : Option String}
      {t : Session} (authenticating : s.phase = .authenticating cards r)
      (ended : s.sign d cards r proof password = some t) :
      Step s d random (.authenticate proof password) t d
  | newSeed {words : Nat} (idle : s.phase = .idle) :
      Step s d random (.newSeed words) (s.newSeed random words) d
  | recoverSeed (idle : s.phase = .idle) :
      Step s d random .recoverSeed { s.toIdle with phase := .namingSeed none } d
  | nameSeed {phrase : Option String} {name : String} (naming : s.phase = .namingSeed phrase) :
      Step s d random (.setSeedName name) (s.nameSeed d phrase name) d
  | enterPhrase {name phrase : String} (entering : s.phase = .enteringPhrase name) :
      Step s d random (.setSeedPhrase phrase) (s.enterPhrase name phrase) d
  | confirmSeed {origin : SeedOrigin} {name phrase : String} {t : Session} {d' : Device}
      (confirming : s.phase = .confirmingSeed origin name phrase)
      (ended : s.confirmSeed d name phrase = some (t, d')) : Step s d random .confirmSeed t d'
  | startExport {name : String} (idle : s.phase = .idle) :
      Step s d random (.exportSeed name) (s.startExport d name) d
  | exportSeed {seed : SeedHandle} {proof : Bytes} {password : Option String}
      (exporting : s.phase = .exporting seed) :
      Step s d random (.authenticate proof password) (s.exportSeed d seed proof) d
  | deleteSeed {name : String} {proof : Bytes} (idle : s.phase = .idle) :
      Step s d random (.deleteSeed name proof) (s.deleteSeed d name proof).1
        (s.deleteSeed d name proof).2
  | leave {a : Action} (leaving : a = .reject ∨ a = .reset ∨ a = .cancel) :
      Step s d random a s.toIdle d

/-- An action that ends with a result takes the step to it. -/
theorem Step.of_ended {s t : Session} {d d' : Device} {random : FixedBytes 32} {a : Action}
    {x : Session × Device} (ended : some x = some (t, d')) (step : Step s d random a x.1 x.2) :
    Step s d random a t d' := by
  obtain rfl := Option.some.inj ended
  exact step

theorem step_of_accepts {s t : Session} {d d' : Device} {random : FixedBytes 32} {a : Action}
    (h : s.tag.accepts a.kind = true) (ended : s.apply d random a = some (t, d')) :
    Step s d random a t d' := by
  obtain ⟨settings, phase, digest, collector, notice, exported, attempts⟩ := s
  cases phase with
  | idle =>
    cases a with
    | startScan => exact .of_ended ended (.startScan rfl)
    | newSeed => exact .of_ended ended (.newSeed rfl)
    | recoverSeed => exact .of_ended ended (.recoverSeed rfl)
    | exportSeed => exact .of_ended ended (.startExport rfl)
    | deleteSeed => exact .of_ended ended (.deleteSeed rfl)
    | _ => cases h
  | awaitingScan =>
    cases a with
    | scanFrame => exact .of_ended ended (.scanFrame rfl)
    | cancel => exact .of_ended ended (.leave (.inr (.inr rfl)))
    | _ => cases h
  | decoding =>
    cases a with
    | decode => exact .of_ended ended (.decode rfl)
    | cancel => exact .of_ended ended (.leave (.inr (.inr rfl)))
    | _ => cases h
  | reviewing =>
    cases a with
    | approve => exact .of_ended ended (.approve rfl)
    | reject => exact .of_ended ended (.leave (.inl rfl))
    | _ => cases h
  | authenticating =>
    cases a with
    | authenticate =>
      obtain ⟨t', hsign, heq⟩ := Option.map_eq_some_iff.1 ended
      cases heq
      exact .sign rfl hsign
    | cancel => exact .of_ended ended (.leave (.inr (.inr rfl)))
    | _ => cases h
  | signed =>
    cases a with
    | reset => exact .of_ended ended (.leave (.inr (.inl rfl)))
    | _ => cases h
  | namingSeed =>
    cases a with
    | setSeedName =>
      obtain ⟨rfl, rfl⟩ := Prod.mk.inj (Option.some.inj ended)
      exact .nameSeed rfl
    | cancel => exact .of_ended ended (.leave (.inr (.inr rfl)))
    | _ => cases h
  | enteringPhrase =>
    cases a with
    | setSeedPhrase => exact .of_ended ended (.enterPhrase rfl)
    | cancel => exact .of_ended ended (.leave (.inr (.inr rfl)))
    | _ => cases h
  | confirmingSeed =>
    cases a with
    | confirmSeed => exact .confirmSeed rfl ended
    | cancel => exact .of_ended ended (.leave (.inr (.inr rfl)))
    | _ => cases h
  | exporting =>
    cases a with
    | authenticate => exact .of_ended ended (.exportSeed rfl)
    | cancel => exact .of_ended ended (.leave (.inr (.inr rfl)))
    | _ => cases h
  | failed =>
    cases a with
    | reset => exact .of_ended ended (.leave (.inr (.inl rfl)))
    | _ => cases h

/-- The same session without what the last action left to be shown. -/
def cleared (s : Session) : Session := { s with notice := none, exported := none }

theorem update_eq_ok {s s' : Session} {d d' : Device} {random : FixedBytes 32} {a : Action}
    (h : s.update d random a = .ok (s', d')) :
    ∃ t, Step s.cleared d random a t d' ∧ s' = { t with digest := s.digest.fold a.hash } := by
  unfold update at h
  split at h
  · next ha =>
    split at h
    · next t d'' ended =>
      obtain ⟨rfl, rfl⟩ := Prod.mk.inj (Except.ok.inj h)
      exact ⟨t, step_of_accepts (s := s.cleared) ha ended, rfl⟩
    · cases h
  · cases h

/-! ### Actions that stop the program -/

theorem sign_eq_none_iff {s : Session} {d : Device} {cards : List Card} {r : Review.SigningRequest}
    {proof : Bytes} {password : Option String} : s.sign d cards r proof password = none ↔
      ∃ details signature, d.vault.lookupOn r.signer r.network = some details ∧
        d.vault.sign (details.derivedKey r.signer) password proof r.payload = .ok signature ∧
          r.signer.scheme = .ed25519 ∧ Wire.Frame.wordSize < s.settings.frameCapacity + 65 := by
  unfold sign
  constructor
  · intro stopped
    split at stopped
    · cases stopped
    · next details enabled =>
      split at stopped
      · cases stopped
      · next signature signed =>
        split at stopped
        · cases stopped
        · next overflow =>
          obtain ⟨hscheme, hpast⟩ := encode_answer_eq_overflow_iff.1 overflow
          rw [Vault.scheme_of_sign signed] at hscheme
          exact ⟨details, signature, enabled, signed, hscheme, hpast⟩
        · cases stopped
  · rintro ⟨details, signature, enabled, signed, hscheme, hpast⟩
    have overflow : s.answerFrames signature = .error .overflow :=
      encode_answer_eq_overflow_iff.2 ⟨(Vault.scheme_of_sign signed).trans hscheme, hpast⟩
    rw [enabled]
    dsimp only
    rw [signed]
    dsimp only
    rw [overflow]

theorem confirmSeed_eq_none_iff {s : Session} {d : Device} {name phrase : String} :
    s.confirmSeed d name phrase = none ↔
      d.vault.importPhrase name phrase = .error .overflow := by
  unfold confirmSeed
  constructor
  · intro stopped
    split at stopped
    · assumption
    · cases stopped
    · split at stopped <;> cases stopped
  · intro stopped
    rw [stopped]

/-- What is asked too much of the words: a frame of nearly all bytes that can be numbered, or one
more handle than can be. -/
def PastWords (s : Session) (d : Device) : Prop :=
  (∃ cards r, s.phase = .authenticating cards r ∧ r.signer.scheme = .ed25519 ∧
      Wire.Frame.wordSize < s.settings.frameCapacity + 65) ∨
    ∃ origin name phrase, s.phase = .confirmingSeed origin name phrase ∧
      UInt32.size ≤ d.vault.next.toNat + 1

/-- Only a signature and a new seed stop the program. -/
theorem stopped_cases {s : Session} {d : Device} {random : FixedBytes 32} {a : Action}
    (stopped : s.apply d random a = none) :
    (∃ cards r proof password, s.phase = .authenticating cards r ∧ a = .authenticate proof password ∧
        s.sign d cards r proof password = none) ∨
      ∃ origin name phrase, s.phase = .confirmingSeed origin name phrase ∧ a = .confirmSeed ∧
        s.confirmSeed d name phrase = none := by
  unfold apply at stopped
  -- all other pairs end with a session
  split at stopped <;> try cases stopped
  · next phase => exact .inl ⟨_, _, _, _, phase, rfl, Option.map_eq_none_iff.1 stopped⟩
  · next phase => exact .inr ⟨_, _, _, phase, rfl, stopped⟩

theorem pastWords_of_apply {s : Session} {d : Device} {random : FixedBytes 32} {a : Action}
    (stopped : s.apply d random a = none) : s.PastWords d := by
  rcases stopped_cases stopped with ⟨cards, r, proof, password, phase, -, hsign⟩ |
    ⟨origin, name, phrase, phase, -, hconfirm⟩
  · obtain ⟨-, -, -, -, hscheme, hpast⟩ := sign_eq_none_iff.1 hsign
    exact .inl ⟨cards, r, phase, hscheme, hpast⟩
  · have hsize := Vault.size_le_of_importPhrase (confirmSeed_eq_none_iff.1 hconfirm)
    exact .inr ⟨origin, name, phrase, phase, hsize⟩

/-- An accepted action takes its step, or stops the program. -/
theorem update_of_accepts {s : Session} (d : Device) (random : FixedBytes 32) {a : Action}
    (accepted : s.tag.accepts a.kind = true) :
    (∃ t d', Step s.cleared d random a t d' ∧
        s.update d random a = .ok ({ t with digest := s.digest.fold a.hash }, d')) ∨
      s.cleared.apply d random a = none ∧ s.update d random a = .error .overflow := by
  cases ended : s.cleared.apply d random a with
  | some x =>
    refine .inl ⟨x.1, x.2, step_of_accepts (s := s.cleared) accepted ended, ?_⟩
    unfold update
    rw [if_pos accepted, show apply { s with notice := none, exported := none } d random a = some x
      from ended]
  | none =>
    refine .inr ⟨rfl, ?_⟩
    unfold update
    rw [if_pos accepted, show apply { s with notice := none, exported := none } d random a = none
      from ended]

/-! ### Changes -/

/-- What an action can make of a session: it goes idle, starts on something, fails,
stays with a notice, or moves on. Only a scan leads into a request. -/
inductive Change (s : Session) (a : Action) : Session → Prop where
  | reset (exported : Option String) : Change s a { s.toIdle with exported }
  | started {phase : Phase} (active : phase ≠ .idle)
      (scanning : phase.isRequest = true → a = .startScan) : Change s a { s.toIdle with phase }
  | failed (collector : Wire.Collector) (fault : SessionFault) :
      Change s a ({ s with collector }.fail fault)
  | noticed {attempts : Nat} (notice : Option SessionFault)
      (counted : s.phase = .idle → attempts = s.attempts) : Change s a { s with notice, attempts }
  | moved {phase : Phase} (collector : Wire.Collector) (active : phase ≠ .idle)
      (request : phase.isRequest = s.phase.isRequest) : Change s a { s with phase, collector }

namespace Change

variable {s : Session} {a : Action}

theorem toIdle : Change s a s.toIdle := .reset none

theorem refuse (e : VaultError) : Change s a (s.refuse e) := .noticed _ fun _ => rfl

/-- A failed authentication counts, since nothing is authenticated while idle. -/
theorem retry (e : VaultError) (active : s.phase ≠ .idle) : Change s a (s.retry e) :=
  .noticed _ fun idle => absurd idle active

/-- No action touches the settings. -/
theorem settings_eq {t : Session} (h : Change s a t) : t.settings = s.settings := by
  cases h <;> rfl

/-- The digest is folded afterwards. -/
theorem digest_eq {t : Session} (h : Change s a t) : t.digest = s.digest := by
  cases h <;> rfl

theorem isRequest_eq_false {t : Session} (h : Change s a t) (outside : s.phase.isRequest = false)
    (ha : a ≠ .startScan) : t.phase.isRequest = false := by
  cases h with
  | reset | failed => rfl
  | started _ scanning => exact Bool.eq_false_iff.2 fun h => ha (scanning h)
  | noticed => exact outside
  | moved _ _ request => exact request.trans outside

end Change

namespace Step

variable {s t : Session} {d d' : Device} {random : FixedBytes 32} {a : Action}

/-- A step does what the action does. -/
theorem apply_eq (h : Step s d random a t d') : s.apply d random a = some (t, d') := by
  obtain ⟨settings, phase, digest, collector, notice, exported, attempts⟩ := s
  cases h with
  | startScan h | scanFrame h | decode h | approve h | newSeed h | recoverSeed h | nameSeed h
  | enterPhrase h | startExport h | exportSeed h | deleteSeed h =>
    obtain rfl := h
    rfl
  | sign h ended =>
    obtain rfl := h
    exact Option.map_eq_some_iff.2 ⟨t, ended, rfl⟩
  | confirmSeed h ended =>
    obtain rfl := h
    exact ended
  -- the three ways out are the same from every phase
  | leave leaving =>
    rcases leaving with rfl | rfl | rfl <;> cases phase <;> rfl

/-- An action is accepted along its step. -/
theorem update_eq (h : Step s.cleared d random a t d') (accepted : s.tag.accepts a.kind = true) :
    s.update d random a = .ok ({ t with digest := s.digest.fold a.hash }, d') := by
  rcases update_of_accepts d random accepted with ⟨t', d'', step, hupdate⟩ | ⟨stopped, -⟩
  · obtain ⟨rfl, rfl⟩ := Prod.mk.inj (Option.some.inj (h.apply_eq.symm.trans step.apply_eq))
    exact hupdate
  · cases h.apply_eq.symm.trans stopped

theorem change (h : Step s d random a t d') : Change s a t := by
  cases h with
  | startScan => exact .started nofun fun _ => rfl
  | scanFrame scanning =>
    unfold Session.scanFrame
    split
    · exact .failed _ _
    · dsimp only
      split
      · split
        · exact .moved _ nofun (by rw [scanning]; rfl)
        · exact .failed _ _
      · exact .moved _ (by rw [scanning]; nofun) rfl
  | decode decoding =>
    unfold Session.decode
    split
    · exact .failed _ _
    · split
      · split
        · exact .moved _ nofun (by rw [decoding]; rfl)
        · exact .failed _ _
      · exact .moved _ nofun (by rw [decoding]; rfl)
  | approve reviewing =>
    unfold Session.approve
    split
    · exact .moved _ nofun (by rw [reviewing]; rfl)
    · split
      · exact .toIdle
      · exact .failed _ _
  | sign authenticating ended =>
    cases signs_of_sign ended with
    | unlisted | failed | unanswered => exact .failed _ _
    | retried => exact .retry _ (by rw [authenticating]; nofun)
    | signed => exact .moved _ nofun (by rw [authenticating]; rfl)
  | newSeed =>
    unfold Session.newSeed
    split
    · exact .started nofun nofun
    · exact .refuse _
  | recoverSeed => exact .started nofun nofun
  | nameSeed naming =>
    unfold Session.nameSeed
    dsimp only
    split
    · exact .refuse _
    · split
      · exact .refuse _
      · split <;> exact .moved _ nofun (by rw [naming]; rfl)
  | enterPhrase entering =>
    unfold Session.enterPhrase
    split
    · exact .moved _ nofun (by rw [entering]; rfl)
    · exact .refuse _
  | confirmSeed _ ended =>
    cases confirms_of_confirmSeed ended with
    | kept => exact .toIdle
    | refused | takenBack => exact .failed _ _
  | startExport =>
    unfold Session.startExport
    split
    · exact .started nofun nofun
    · exact .refuse _
  | exportSeed exporting =>
    unfold Session.exportSeed
    split
    · exact .reset _
    · split
      · exact .retry _ (by rw [exporting]; nofun)
      · exact .failed _ _
  | deleteSeed =>
    unfold Session.deleteSeed
    dsimp only
    split
    · exact .toIdle
    · exact .refuse _
  | leave => exact .toIdle

/-- The settings of a session last as long as it. -/
theorem settings_eq (h : Step s d random a t d') : t.settings = s.settings := h.change.settings_eq

/-- Only a scan leads into a request. -/
theorem isRequest_eq_false (h : Step s d random a t d') (outside : s.phase.isRequest = false)
    (ha : a ≠ .startScan) : t.phase.isRequest = false :=
  h.change.isRequest_eq_false outside ha

end Step

end Session

end ColdSigner
