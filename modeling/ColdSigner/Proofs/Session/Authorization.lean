import ColdSigner.Proofs.Key.PathForm
import ColdSigner.Proofs.Review.Message
import ColdSigner.Proofs.Review.Transaction
import ColdSigner.Proofs.Session.History
import ColdSigner.Proofs.Vault.Changes
import ColdSigner.Proofs.Wire.Reassembly
import ColdSigner.Session.View

/-! No signature without review, approval and a fresh proof.

The log of a session that holds a signature ends in one way only: a scan, the
frames of a payload, its decoding, the approval, perhaps authentications that
failed, and the one that signed. Each phase on this way keeps what the log says of
it, whatever else happens to the device. -/
namespace ColdSigner

/-! ### What a log says -/

/-- A log that ends with a scan of these frames. -/
inductive Scans : List Moment → List Bytes → Prop where
  | start {log : List Moment} {m : Moment} (action : m.action = .startScan) : Scans (log ++ [m]) []
  | frame {log : List Moment} {frames : List Bytes} {m : Moment} {frame : Bytes}
      (scanned : Scans log frames) (action : m.action = .scanFrame frame) :
      Scans (log ++ [m]) (frames ++ [frame])

/-- A log that ends with the decoding of a scanned payload. -/
inductive Decodes (l : Review.Limits) : List Moment → Review → Prop where
  | decode {log : List Moment} {frames : List Bytes} {payload : Bytes} {m : Moment} {review : Review}
      (scanned : Scans log frames) (complete : Wire.Frame.decode frames = .ok payload)
      (action : m.action = .decode)
      (decoded : Review.decodeRequest payload m.device.registry.source l = .ok review) :
      Decodes l (log ++ [m]) review

/-- A log that ends with the approval of what was decoded just before, or with
authentications after it. -/
inductive Approves (l : Review.Limits) : List Moment → Review → Prop where
  | approve {log : List Moment} {m : Moment} {review : Review} (decoded : Decodes l log review)
      (action : m.action = .approve) : Approves l (log ++ [m]) review
  | retry {log : List Moment} {m : Moment} {review : Review} {proof : Bytes} {password : Option String}
      (approved : Approves l log review) (action : m.action = .authenticate proof password) :
      Approves l (log ++ [m]) review

/-- A log that ends with the authentication of an approved request: its proof is
verified, its signer is enabled on its network, and the key of its signer is derived
from a seed that is there. -/
inductive Authorizes (l : Review.Limits) : List Moment → Review → Signature → Prop where
  | authenticate {log : List Moment} {m : Moment} {cards : List Card} {r : Review.SigningRequest}
      {proof : Bytes} {password : Option String} {details : AddressDetails} {seed : Seed}
      {path : DerivationPath} {k : SecretKey} (approved : Approves l log ⟨cards, .sign r⟩)
      (action : m.action = .authenticate proof password)
      (fresh : m.device.vault.authenticator.verifies proof = true)
      (enabled : m.device.vault.lookupOn r.signer r.network = some details)
      (live : m.device.vault.seeds.find? details.seed = some seed)
      (parsed : DerivationPath.parse details.path = .ok path)
      (derived : SecretKey.derive seed.entropy (path.withPassword password) r.signer.scheme = .ok k)
      (key : k.publicKey = r.signer) :
      Authorizes l (log ++ [m]) ⟨cards, .sign r⟩ (k.sign r.payload)

/-! ### What each phase keeps -/

/-- What the log says of a session in a phase on the way to a signature. -/
def Origin (settings : SessionSettings) (log : List Moment) (c : Wire.Collector) : Phase → Prop
  | .awaitingScan => ∃ frames, Scans log frames ∧ frames.foldlM Wire.Collector.push {} = .ok c
  | .decoding payload => ∃ frames, Scans log frames ∧ Wire.Frame.decode frames = .ok payload
  | .reviewing review => Decodes settings.limits log review
  | .authenticating cards r => Approves settings.limits log ⟨cards, .sign r⟩
  | .signed cards r signature frames =>
    Authorizes settings.limits log ⟨cards, .sign r⟩ signature ∧
      Wire.Frame.encode (Wire.Response.encode ⟨signature.scheme, signature.bytes⟩)
        settings.frameCapacity = .ok frames
  | _ => True

namespace Session

variable {settings : SessionSettings} {log : List Moment} {s t : Session} {d d' : Device}
  {random : FixedBytes 32} {a : Action}

theorem scanFrame_origin {frame : Bytes} (scanning : s.phase = .awaitingScan)
    (h : Origin settings log s.collector s.phase) :
    Origin settings (log ++ [⟨d, .scanFrame frame⟩]) (s.scanFrame frame).collector
      (s.scanFrame frame).phase := by
  rw [scanning] at h
  obtain ⟨frames, hscans, hframes⟩ := h
  have hmore : Scans (log ++ [⟨d, .scanFrame frame⟩]) (frames ++ [frame]) := .frame hscans rfl
  unfold scanFrame
  split
  · trivial
  · next c hc =>
    have hall : (frames ++ [frame]).foldlM Wire.Collector.push {} = .ok c := by
      rw [List.foldlM_append]
      exact bind_eq_ok.2 ⟨s.collector, hframes, bind_eq_ok.2 ⟨c, hc, rfl⟩⟩
    dsimp only
    split
    · split
      · next payload hfinish => exact ⟨_, hmore, bind_eq_ok.2 ⟨c, hall, hfinish⟩⟩
      · trivial
    · show Origin settings _ c s.phase
      rw [scanning]
      exact ⟨_, hmore, hall⟩

theorem decode_origin {payload : Bytes} (hs : s.settings = settings)
    (decoding : s.phase = .decoding payload) (h : Origin settings log s.collector s.phase) :
    Origin settings (log ++ [⟨d, .decode⟩]) (s.decode d payload).collector
      (s.decode d payload).phase := by
  rw [decoding] at h
  obtain ⟨frames, hscans, hframes⟩ := h
  unfold decode
  split
  · trivial
  · next review hreview =>
    rw [hs] at hreview
    have hdecodes : Decodes settings.limits (log ++ [⟨d, .decode⟩]) review :=
      .decode hscans hframes rfl hreview
    split
    · split
      · exact hdecodes
      · trivial
    · exact hdecodes

theorem approve_origin {review : Review} (reviewing : s.phase = .reviewing review)
    (h : Origin settings log s.collector s.phase) :
    Origin settings (log ++ [⟨d, .approve⟩]) (s.approve d review).1.collector
      (s.approve d review).1.phase := by
  rw [reviewing] at h
  obtain ⟨cards, request⟩ := review
  cases request with
  | sign r => exact .approve h rfl
  | loadMetadata e =>
    unfold approve
    dsimp only
    split <;> trivial

theorem sign_origin {cards : List Card} {r : Review.SigningRequest} {proof : Bytes}
    {password : Option String} (hs : s.settings = settings)
    (authenticating : s.phase = .authenticating cards r)
    (h : Origin settings log s.collector s.phase) (ended : s.sign d cards r proof password = some t) :
    Origin settings (log ++ [⟨d, .authenticate proof password⟩]) t.collector t.phase := by
  rw [authenticating] at h
  cases signs_of_sign ended with
  | unlisted | failed | unanswered => trivial
  | retried =>
    show Origin settings _ _ s.phase
    rw [authenticating]
    exact .retry h rfl
  | signed enabled signed answered =>
    obtain ⟨hproof, -, seed, path, k, hseed, hpath, hk, hkey, rfl⟩ := Vault.sign_eq_ok.1 signed
    rw [answerFrames, hs] at answered
    exact ⟨.authenticate h rfl hproof enabled hseed hpath hk hkey, answered⟩

theorem origin_of_outside {c : Wire.Collector} {p : Phase} (outside : p.isRequest = false) :
    Origin settings log c p := by
  cases p <;> trivial

/-- Every step keeps what the log says. -/
theorem Step.origin (hs : s.settings = settings) (h : Origin settings log s.collector s.phase)
    (step : Step s d random a t d') : Origin settings (log ++ [⟨d, a⟩]) t.collector t.phase := by
  cases hrequest : s.phase.isRequest with
  -- outside of a request, only a scan leads to a phase of which the log says something
  | false =>
    by_cases ha : a = .startScan
    · subst ha
      cases step with
      | startScan => exact ⟨[], .start rfl, rfl⟩
      | leave => trivial
    · exact origin_of_outside (step.isRequest_eq_false hrequest ha)
  | true =>
    cases step with
    | startScan => exact ⟨[], .start rfl, rfl⟩
    | scanFrame scanning => exact scanFrame_origin scanning h
    | decode decoding => exact decode_origin hs decoding h
    | approve reviewing => exact approve_origin reviewing h
    | sign authenticating ended => exact sign_origin hs authenticating h ended
    | recoverSeed => trivial
    | leave => trivial
    | _ => simp_all [Phase.isRequest]

end Session

theorem History.origin {others : Device → Device → Prop} {settings : SessionSettings}
    {log : List Moment} {s : Session} {d : Device} (h : History others settings log s d) :
    Origin settings log s.collector s.phase := by
  refine h.invariant (P := fun log s => Origin settings log s.collector s.phase) trivial ?_
  intro log s t d d' random a hs ih step
  exact @Session.Step.origin settings log s.cleared t d d' random a hs ih step

/-! ### A signed message -/

namespace Session

variable {s : Session} {d : Device}

/-- A payload that is its own frame is complete at once. -/
theorem scanFrame_single {payload : Bytes} (hs : s.collector = {})
    (single : ∃ first rest, payload = first :: rest ∧ first ≠ Wire.FrameHeader.multipart) :
    (s.scanFrame payload).phase = .decoding payload := by
  obtain ⟨first, rest, rfl, hfirst⟩ := single
  have hpush : s.collector.push (first :: rest) = .ok { single := some (first :: rest) } := by
    rw [hs]
    exact if_pos hfirst
  unfold scanFrame
  rw [hpush]
  rfl

theorem decode_message {m : Review.Message} (accepted : m.Accepted d.registry.source)
    (enabled : (d.vault.lookupOn m.signer m.network).isSome = true) :
    (s.decode d m.encode).phase = .reviewing m.review := by
  unfold decode
  rw [Review.decodeRequest_message accepted]
  show (if (d.vault.lookupOn m.signer m.network).isSome = true then
    { s with phase := .reviewing m.review } else _).phase = _
  rw [if_pos enabled]

theorem sign_eq_signed {cards : List Card} {r : Review.SigningRequest} {proof : Bytes}
    {password : Option String} {details : AddressDetails} {signature : Signature}
    {frames : List Bytes} (enabled : d.vault.lookupOn r.signer r.network = some details)
    (signed : d.vault.sign (details.derivedKey r.signer) password proof r.payload = .ok signature)
    (answered : s.answerFrames signature = .ok frames) :
    s.sign d cards r proof password = some { s with phase := .signed cards r signature frames } := by
  unfold sign
  rw [enabled]
  dsimp only
  rw [signed]
  dsimp only
  rw [answered]

end Session

/-- A message that is accepted, of a signer that is enabled, can be signed. -/
theorem History.exists_signed {settings : SessionSettings} {d : Device} {m : Review.Message}
    {details : AddressDetails} {proof : Bytes} {password : Option String} {signature : Signature}
    {frames : List Bytes} (others : Device → Device → Prop)
    (accepted : m.Accepted d.registry.source)
    (enabled : d.vault.lookupOn m.signer m.network = some details)
    (signed : d.vault.sign (details.derivedKey m.signer) password proof m.request.payload =
      .ok signature)
    (answered : Wire.Frame.encode (Wire.Response.encode ⟨signature.scheme, signature.bytes⟩)
      settings.frameCapacity = .ok frames) :
    ∃ log s, History others settings log s d ∧ s.signature? = some signature := by
  -- one action for each phase on the way; nothing else happens to the device
  have h₀ := @History.opened others settings d
  obtain ⟨s₁, h₁, hp₁, hc₁⟩ := h₀.advance rfl
    (@Session.Step.startScan { settings } d (.fit 32 []) rfl)
  obtain ⟨s₂, h₂, hp₂, -⟩ := h₁.advance (by rw [Session.tag, hp₁]; rfl)
    (@Session.Step.scanFrame s₁.cleared d (.fit 32 []) m.encode hp₁)
  rw [@Session.scanFrame_single s₁.cleared m.encode hc₁ ⟨_, _, rfl, by decide⟩] at hp₂
  obtain ⟨s₃, h₃, hp₃, -⟩ := h₂.advance (by rw [Session.tag, hp₂]; rfl)
    (@Session.Step.decode s₂.cleared d (.fit 32 []) m.encode hp₂)
  rw [Session.decode_message accepted (by rw [enabled]; rfl)] at hp₃
  obtain ⟨s₄, h₄, hp₄, -⟩ := h₃.advance (by rw [Session.tag, hp₃]; rfl)
    (@Session.Step.approve s₃.cleared d (.fit 32 []) m.review hp₃)
  have hframes : s₄.cleared.answerFrames signature = .ok frames := by
    rw [← h₄.settings_eq] at answered
    exact answered
  obtain ⟨s₅, h₅, hp₅, -⟩ := h₄.advance (by rw [Session.tag, hp₄]; rfl)
    (@Session.Step.sign s₄.cleared d (.fit 32 []) m.review.cards m.request proof password _ hp₄
      (Session.sign_eq_signed (r := m.request) enabled signed hframes))
  exact ⟨_, s₅, h₅, by rw [Session.signature?, hp₅]; rfl⟩

/-- Without junctions, entropy of a fitting length always gives an `ed25519` key. -/
theorem SecretKey.exists_derive {entropy : Bytes} (h : entropy.length ∈ entropyLengths)
    (password : Option String) :
    ∃ k, SecretKey.derive entropy ⟨[], password⟩ .ed25519 = .ok k ∧ k.publicKey.scheme = .ed25519 := by
  obtain ⟨secret, hsecret⟩ : ∃ secret, root entropy (password.getD "") = .ok secret :=
    ⟨_, if_pos h⟩
  exact ⟨.ed25519 secret, bind_eq_ok.2 ⟨secret, hsecret, rfl⟩, rfl⟩

/-- A seed, and its root key enabled on the small network. -/
def sampleDevice (key : PublicKey) : Device where
  vault := {
    authenticator := ⟨fun proof => proof == [1]⟩
    next := 1
    seeds := ⟨[(⟨0⟩, ⟨"sample", List.replicate 16 0⟩)]⟩
    addresses := ⟨[(key, ⟨⟨0⟩, "sample", "", false, [Review.sampleEntry.network]⟩)]⟩ }
  registry := Review.sampleRegistry

theorem sampleDevice_enables (key : PublicKey) :
    (sampleDevice key).vault.lookupOn key Review.sampleEntry.network =
      some ⟨⟨0⟩, "sample", "", false, [Review.sampleEntry.network]⟩ := by
  simp [Vault.lookupOn, Vault.lookup, Table.find?, sampleDevice]

def sampleMessage (key : PublicKey) : Review.Message where
  signer := key
  network := Review.sampleEntry.network
  content := [104, 105]
  entry := Review.sampleEntry

theorem exists_sample_history : ∃ (d : Device) (log : List Moment) (s : Session)
    (signature : Signature), History (fun _ _ => True) {} log s d ∧
      s.signature? = some signature := by
  obtain ⟨k, hk, hscheme⟩ := @SecretKey.exists_derive (List.replicate 16 0) (by decide) none
  have hsign : (sampleDevice k.publicKey).vault.sign ⟨⟨0⟩, "", false, k.publicKey⟩ none [1]
      (sampleMessage k.publicKey).request.payload =
        .ok (k.sign (sampleMessage k.publicKey).request.payload) := by
    refine Vault.sign_eq_ok.2 ⟨rfl, by simp, _, _, k, rfl, parse_root_path, ?_, rfl, rfl⟩
    show SecretKey.derive _ _ k.publicKey.scheme = _
    rw [hscheme]
    exact hk
  obtain ⟨frames, hframes⟩ := exists_answer (k.sign (sampleMessage k.publicKey).request.payload)
    (show Wire.FrameHeader.length < Wire.defaultCapacity by decide) fun _ => by decide
  obtain ⟨log, s, h, hsigned⟩ := @History.exists_signed {} _ (sampleMessage k.publicKey) _ [1] none _ _
    (fun _ _ => True) ⟨hscheme.symm, rfl, by show 2 < 256 ^ 16; decide⟩
    (sampleDevice_enables k.publicKey) hsign hframes
  exact ⟨_, log, s, _, h, hsigned⟩

/-! ### Signatures -/

/-- A session holds a signature only when it has signed; and then a scanned payload
was decoded to the request under review, this was approved, and the authentication
that followed was verified and made the signature, for a signer enabled at that
moment, with its key. The frames that are shown bring scheme and signature across. -/
theorem signatures_are_authorized (others : Device → Device → Prop) (settings : SessionSettings)
    (log : List Moment) (s : Session) (d : Device) (h : History others settings log s d) :
    (s.signature?.isSome = true ↔ s.tag = .signed) ∧
      ∀ signature, s.signature? = some signature →
        ∃ review, s.review? = some review ∧ Authorizes settings.limits log review signature ∧
          Wire.Frame.decode (s.view d).frames = .ok (signature.scheme.toByte :: signature.bytes) := by
  refine ⟨?_, ?_⟩
  · unfold Session.signature? Session.tag
    cases s.phase <;> simp [Phase.signature?, Phase.tag]
  · intro signature hsignature
    have horigin := h.origin
    unfold Session.review? Session.view
    unfold Session.signature? at hsignature
    cases hphase : s.phase with
    | signed cards r sig frames =>
      rw [hphase] at horigin hsignature
      obtain rfl := Option.some.inj hsignature
      obtain ⟨hauthorizes, hframes⟩ := horigin
      exact ⟨_, rfl, hauthorizes, Wire.Frame.decode_encode hframes⟩
    | _ =>
      rw [hphase] at hsignature
      cases hsignature

theorem sample_signature_is_authorized : ∃ (d : Device) (log : List Moment) (s : Session)
    (signature : Signature) (review : Review), History (fun _ _ => True) {} log s d ∧
      s.signature? = some signature ∧ s.review? = some review ∧ Authorizes {} log review signature ∧
        Wire.Frame.decode (s.view d).frames = .ok (signature.scheme.toByte :: signature.bytes) := by
  obtain ⟨d, log, s, signature, h, hsignature⟩ := exists_sample_history
  obtain ⟨-, hall⟩ := signatures_are_authorized (fun _ _ => True) {} log s d h
  obtain ⟨review, hreview, hauthorizes, hframes⟩ := hall signature hsignature
  exact ⟨d, log, s, signature, review, h, hsignature, hreview, hauthorizes, hframes⟩

end ColdSigner
