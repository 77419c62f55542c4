import ColdSigner.Host
import ColdSigner.Proofs.Metadata.Blobs
import ColdSigner.Proofs.Registry
import ColdSigner.Proofs.Review.ExactFraming
import ColdSigner.Proofs.Session.Steps

/-! Two ways for metadata into a host.

A blob is loaded at once, or it comes as an update through a session, which reads it
when it decodes the payload, and stores its entry when that is approved. Either way it
meets the same fate (`Registry.Receives`), and leaves the same device behind. Only what
is wrong with it comes out at another point. -/
namespace ColdSigner

theorem Entry.load_sampleEntry :
    load Review.sampleEntry.network Review.sampleEntry.encode = .ok Review.sampleEntry := by
  have fits : Review.sampleEntry.encode.length < 256 ^ 16 := by
    show 66 < 256 ^ 16
    decide
  exact bind_eq_ok.2 ⟨Review.sampleEntry.metadata, (Metadata.decode_eq_ok fits).2 ⟨nofun, rfl⟩,
    build_eq_ok.2 ⟨rfl, rfl⟩⟩

/-! ### Sessions of a host -/

namespace Host

variable {h : Host} {id : SessionId} {s s' : Session} {d : Device} {random : FixedBytes 32}
  {a : Action}

/-- The host after an action of a session. What is refused changes nothing. -/
def acted (h : Host) (id : SessionId) (random : FixedBytes 32) (a : Action) : Host :=
  match h.act id random a with
  | .ok (_, h') => h'
  | .error _ => h

/-- The host after metadata were to be loaded. -/
def afterLoad (h : Host) (network : NetworkId) (blob : Bytes) : Host :=
  match h.loadMetadata network blob with
  | .ok (_, h') => h'
  | .error _ => h

theorem session_eq_ok : h.session id = .ok s ↔ h.sessions.find? id = some s := by
  unfold session
  cases h.sessions.find? id <;> simp

theorem act_eq (found : h.session id = .ok s) (random : FixedBytes 32) (a : Action) :
    h.act id random a = match s.update h.device random a with
      | .ok (s', device) =>
        .ok (s'.view device, { h with device, sessions := h.sessions.insert id s' })
      | .error stop => .error (.ofStop stop) := by
  rw [act, found]
  change (s.update h.device random a).mapError HostError.ofStop >>= _ = _
  cases s.update h.device random a <;> rfl

/-- An action that its session accepts is a step of the session, on the device of the host. -/
theorem acted_of_step (found : h.session id = .ok s) (accepted : s.tag.accepts a.kind = true)
    (step : Session.Step s.cleared h.device random a s' d) :
    ∃ t, (h.acted id random a).session id = .ok t ∧ t.phase = s'.phase ∧
      (h.acted id random a).device = d := by
  have hacted : h.acted id random a = { h with
      device := d
      sessions := h.sessions.insert id { s' with digest := s.digest.fold a.hash } } := by
    rw [acted, act_eq found, step.update_eq accepted]
  rw [hacted]
  exact ⟨_, session_eq_ok.2 ((Table.find?_insert ..).trans (if_pos rfl)), rfl, rfl⟩

theorem acted_of_not_accepts (found : h.session id = .ok s) (refused : s.tag.accepts a.kind = false) :
    h.acted id random a = h := by
  have hupdate : s.update h.device random a = .error (.refused (.illegalAction s.tag a.kind)) :=
    if_neg (Bool.eq_false_iff.1 refused)
  rw [acted, act_eq found, hupdate]

end Host

/-! ### Updates -/

/-- What becomes of a blob that comes as an update: the phases of its session when it is
decoded and when it was to be approved, and the registry then. -/
inductive Registry.Receives (r : Registry) (network : NetworkId) (blob : Bytes) :
    Phase → Phase → Registry → Prop where
  /-- It is no metadata; there is nothing to approve. -/
  | malformed {f : Metadata.Fault} {phase : Phase} (unread : Entry.load network blob = .error f)
      (failed : phase = .failed (.decode ⟨.malformedMetadata f.message, 35, none⟩) none) :
      Receives r network blob phase phase r
  /-- Another entry is stored for its network and version. -/
  | conflicting {e stored : Entry} (read : Entry.load network blob = .ok e)
      (there : r.get e.network e.specVersion = .ok stored) (other : stored ≠ e) :
      Receives r network blob (.reviewing (Review.Update.review ⟨network, blob, e⟩))
        (.failed (.registry (.alreadyLoaded e.network e.specVersion))
          (some (Review.Update.review ⟨network, blob, e⟩))) r
  | stored {e : Entry} {r' : Registry} (read : Entry.load network blob = .ok e)
      (done : r.insert e = .ok (e, r')) :
      Receives r network blob (.reviewing (Review.Update.review ⟨network, blob, e⟩)) .idle r'

/-- Where the session fails, and over what: a fault of the blob is noticed when it is
decoded, and another entry when it is approved. Nothing is stored then. -/
theorem Registry.Receives.failed {r registry : Registry} {network : NetworkId} {blob : Bytes}
    {decoded approved : Phase}
    (receives : r.Receives network blob decoded approved registry) :
    (approved.tag ≠ .idle → approved.tag = .error ∧ registry = r) ∧
      (decoded.tag = .error ↔ ∃ f, Entry.load network blob = .error f) ∧
      (decoded.tag ≠ .error ∧ approved.tag = .error ↔
        ∃ e stored, Entry.load network blob = .ok e ∧
          r.get e.network e.specVersion = .ok stored ∧ stored ≠ e) := by
  cases receives with
  | malformed unread failed =>
    rw [failed]
    refine ⟨fun _ => ⟨rfl, rfl⟩, iff_of_true rfl ⟨_, unread⟩, iff_of_false (fun h => h.1 rfl) ?_⟩
    rintro ⟨e, -, read, -⟩
    cases unread.symm.trans read
  | conflicting read there other =>
    refine ⟨fun _ => ⟨rfl, rfl⟩, iff_of_false nofun ?_,
      iff_of_true ⟨nofun, rfl⟩ ⟨_, _, read, there, other⟩⟩
    rintro ⟨f, unread⟩
    cases read.symm.trans unread
  | stored read done =>
    refine ⟨fun h => absurd rfl h, iff_of_false nofun ?_, iff_of_false nofun ?_⟩
    · rintro ⟨f, unread⟩
      cases read.symm.trans unread
    · rintro ⟨e, stored, read', there, other⟩
      obtain rfl := Except.ok.inj (read.symm.trans read')
      have refused := Registry.insert_eq_error.2 ⟨rfl, stored, Registry.get_eq_ok.1 there, other⟩
      cases done.symm.trans refused

namespace Session

variable (s : Session) (d : Device) (network : NetworkId) (blob : Bytes)

theorem decode_update :
    s.decode d ([0x53, 0xFF, 0x80] ++ network.bytes ++ blob) =
      match Entry.load network blob with
      | .ok e => { s with phase := .reviewing (Review.Update.review ⟨network, blob, e⟩) }
      | .error f => s.fail (.decode ⟨.malformedMetadata f.message, 35, none⟩) := by
  rw [decode, Review.decodeRequest_append]
  cases Entry.load network blob <;> rfl

theorem approve_update (e : Entry) :
    s.approve d (Review.Update.review ⟨network, blob, e⟩) = match d.registry.insert e with
      | .ok (_, registry) => (s.toIdle, { d with registry })
      | .error f => (s.fail (.registry f), d) :=
  rfl

end Session

namespace Host

variable {h : Host} {id : SessionId} {s : Session} {network : NetworkId} {blob : Bytes}

/-- A session that is to decode an update, and then to approve it, takes it to the registry. -/
theorem exists_receives (found : h.session id = .ok s)
    (decoding : s.phase = .decoding ([0x53, 0xFF, 0x80] ++ network.bytes ++ blob))
    (random random' : FixedBytes 32) : ∃ decoded approved registry,
      (h.acted id random .decode).session id = .ok decoded ∧
        ((h.acted id random .decode).acted id random' .approve).session id = .ok approved ∧
          ((h.acted id random .decode).acted id random' .approve).device =
            { h.device with registry } ∧
          h.device.registry.Receives network blob decoded.phase approved.phase registry := by
  obtain ⟨t, ht, hphase, hdevice⟩ := acted_of_step found (by rw [Session.tag, decoding]; rfl)
    (@Session.Step.decode s.cleared h.device random _ decoding)
  rw [Session.decode_update] at hphase
  cases read : Entry.load network blob with
  | error f =>
    rw [read] at hphase
    replace hphase : t.phase = .failed (.decode ⟨.malformedMetadata f.message, 35, none⟩) s.phase.review? :=
      hphase
    rw [decoding] at hphase
    rw [acted_of_not_accepts ht (by rw [Session.tag, hphase]; rfl)]
    exact ⟨t, t, _, ht, ht, hdevice, .malformed read hphase⟩
  | ok e =>
    rw [read] at hphase
    obtain ⟨t', ht', hphase', hdevice'⟩ := acted_of_step ht (by rw [Session.tag, hphase]; rfl)
      (@Session.Step.approve t.cleared _ random' _ hphase)
    rw [hdevice, Session.approve_update] at hphase' hdevice'
    cases done : h.device.registry.insert e with
    | error f =>
      obtain ⟨rfl, stored, there, other⟩ := Registry.insert_eq_error.1 done
      rw [done] at hphase' hdevice'
      replace hphase' : t'.phase =
          .failed (.registry (.alreadyLoaded e.network e.specVersion)) t.phase.review? := hphase'
      rw [hphase] at hphase'
      refine ⟨t, t', _, ht, ht', hdevice', ?_⟩
      rw [hphase, hphase']
      exact .conflicting read (Registry.get_eq_ok.2 there) other
    | ok x =>
      obtain ⟨x, registry⟩ := x
      obtain ⟨rfl, -⟩ := Registry.insert_eq_ok.1 done
      rw [done] at hphase' hdevice'
      refine ⟨t, t', registry, ht, ht', hdevice', ?_⟩
      rw [hphase, hphase']
      exact .stored read done

/-- A blob that is loaded at once is received in the same way. -/
theorem afterLoad_of_receives {decoded approved : Phase} {registry : Registry}
    (receives : h.device.registry.Receives network blob decoded approved registry) :
    (approved.tag = .idle ↔ ∃ x, h.loadMetadata network blob = .ok x) ∧
      (h.afterLoad network blob).device = { h.device with registry } := by
  unfold afterLoad loadMetadata
  rw [Registry.load_eq]
  cases receives with
  | malformed unread failed =>
    rw [unread, failed]
    exact ⟨iff_of_false nofun nofun, rfl⟩
  | conflicting read there other =>
    rw [read]
    dsimp only
    rw [Registry.insert_eq_error.2 ⟨rfl, _, Registry.get_eq_ok.1 there, other⟩]
    exact ⟨iff_of_false nofun nofun, rfl⟩
  | stored read done =>
    rw [read]
    dsimp only
    rw [done]
    exact ⟨iff_of_true rfl ⟨_, rfl⟩, rfl⟩

/-- Metadata meet the same fate through a session as when they are loaded at once. A
session that decodes an update and approves it is idle again if and only if the blob
could have been loaded, and leaves the same device as that would. Otherwise it failed,
and the registry is as it was: when it was decoded, if the blob is malformed, or when it
was approved, if another entry is stored for its network and version. -/
theorem metadata_paths_agree (h : Host) (id : SessionId) (s : Session) (network : NetworkId)
    (blob : Bytes) (random random' : FixedBytes 32) (found : h.session id = .ok s)
    (decoding : s.phase = .decoding ([0x53, 0xFF, 0x80] ++ network.bytes ++ blob)) :
    ∃ decoded approved, (h.acted id random .decode).session id = .ok decoded ∧
      ((h.acted id random .decode).acted id random' .approve).session id = .ok approved ∧
      (approved.tag = .idle ↔ ∃ x, h.loadMetadata network blob = .ok x) ∧
      ((h.acted id random .decode).acted id random' .approve).device =
        (h.afterLoad network blob).device ∧
      (approved.tag ≠ .idle → approved.tag = .error ∧
        ((h.acted id random .decode).acted id random' .approve).device.registry =
          h.device.registry) ∧
      (decoded.tag = .error ↔ ∃ f, Entry.load network blob = .error f) ∧
      (decoded.tag ≠ .error ∧ approved.tag = .error ↔
        ∃ e stored, Entry.load network blob = .ok e ∧
          h.device.registry.get e.network e.specVersion = .ok stored ∧ stored ≠ e) := by
  obtain ⟨decoded, approved, registry, hdecoded, happroved, hdevice, receives⟩ :=
    exists_receives found decoding random random'
  obtain ⟨hidle, hload⟩ := afterLoad_of_receives receives
  obtain ⟨hfailed, hmalformed, hconflict⟩ := receives.failed
  refine ⟨decoded, approved, hdecoded, happroved, hidle, hdevice.trans hload.symm, ?_, hmalformed,
    hconflict⟩
  rw [hdevice]
  exact hfailed

/-- The metadata of a sample are new to a host without any. -/
theorem sample_update_stored : ∃ (h : Host) (s approved : Session), h.session ⟨1⟩ = .ok s ∧
    s.phase = .decoding ([0x53, 0xFF, 0x80] ++ Review.sampleEntry.network.bytes ++
      Review.sampleEntry.encode) ∧
    ((h.acted ⟨1⟩ (.fit 32 []) .decode).acted ⟨1⟩ (.fit 32 []) .approve).session ⟨1⟩ = .ok approved ∧
    approved.tag = .idle := by
  let s : Session := { phase := .decoding ([0x53, 0xFF, 0x80] ++ Review.sampleEntry.network.bytes ++
    Review.sampleEntry.encode) }
  let h : Host := {
    device := { vault := { authenticator := ⟨fun _ => false⟩ } }
    sessions := ⟨[(⟨1⟩, s)]⟩ }
  obtain ⟨-, approved, -, happroved, hidle, -⟩ :=
    metadata_paths_agree h ⟨1⟩ s Review.sampleEntry.network Review.sampleEntry.encode (.fit 32 [])
      (.fit 32 []) rfl rfl
  refine ⟨h, s, approved, rfl, rfl, happroved, hidle.2 ?_⟩
  rw [loadMetadata, Registry.load_eq, Entry.load_sampleEntry]
  exact ⟨_, rfl⟩

end Host

end ColdSigner
