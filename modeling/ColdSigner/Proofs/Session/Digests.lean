import ColdSigner.Bytes.Lemmas
import ColdSigner.Proofs.Session.History

/-! What a digest tells.

An action is hashed as its label, the length of its data and the data. No label starts
another, so the hashed bytes tell them apart, and then the data tell the action, but for
what is secret of it. Of a word count they tell what four bytes hold: `asHashed` is what
is left of an action. A digest hashes the digest before it with the hash of the action, so
unless hashes collide it tells all the actions of a session. -/
namespace ColdSigner

namespace Action

/-! ### What is hashed of an action -/

/-- The action without its secrets. -/
def redacted : Action → Action
  | .authenticate _ _ => .authenticate [] none
  | .setSeedPhrase _ => .setSeedPhrase ""
  | .deleteSeed name _ => .deleteSeed name []
  | a => a

/-- The action without its secrets, and with a word count that fits into four bytes. -/
def asHashed (a : Action) : Action :=
  match a.redacted with
  | .newSeed words => .newSeed (words % 2 ^ 32)
  | a => a

/-- Whether four bytes hold the word count, if there is one. -/
def CountFits (a : Action) : Prop := ∀ words, a = .newSeed words → words < 2 ^ 32

theorem asHashed_of_countFits {a : Action} (h : a.CountFits) : a.asHashed = a.redacted := by
  cases a with
  | newSeed words => exact congrArg Action.newSeed (Nat.mod_eq_of_lt (h words rfl))
  | _ => rfl

/-- The bytes that are hashed. -/
def preimage (a : Action) : Bytes := ActionHash.preimage (label a.kind) a.publicData

/-! ### What the hashed bytes tell -/

/-- The action of some kind with these data. -/
def ofHashed (data : Bytes) : ActionKind → Action
  | .startScan => .startScan
  | .scanFrame => .scanFrame data
  | .decode => .decode
  | .approve => .approve
  | .reject => .reject
  | .authenticate => .authenticate [] none
  | .reset => .reset
  | .cancel => .cancel
  | .newSeed => .newSeed data.toNat
  | .recoverSeed => .recoverSeed
  | .setSeedName => .setSeedName ((Bytes.toText? data).getD "")
  | .setSeedPhrase => .setSeedPhrase ""
  | .confirmSeed => .confirmSeed
  | .exportSeed => .exportSeed ((Bytes.toText? data).getD "")
  | .deleteSeed => .deleteSeed ((Bytes.toText? data).getD "") []

theorem ofHashed_publicData (a : Action) : ofHashed a.publicData a.kind = a.asHashed := by
  cases a with
  | newSeed words => exact congrArg Action.newSeed (Bytes.toNat_ofNat 4 words)
  | setSeedName name | exportSeed name | deleteSeed name proof =>
    simp [ofHashed, publicData, kind, Bytes.toText?_ofText, asHashed, redacted]
  | _ => rfl

theorem preimage_asHashed (a : Action) : a.asHashed.preimage = a.preimage := by
  cases a with
  | newSeed words =>
    have hbytes : Bytes.ofNat 4 (words % 2 ^ 32) = Bytes.ofNat 4 words := by
      refine Bytes.ofNat_eq_of_toNat (Bytes.length_ofNat ..) ?_
      exact Bytes.toNat_ofNat 4 words
    exact congrArg (ActionHash.preimage (label .newSeed)) hbytes
  | _ => rfl

/-- No label is the start of another. -/
theorem label_prefixFree {k k' : ActionKind}
    (h : Bytes.ofText (label k) <+: Bytes.ofText (label k')) : k = k' := by
  have hall : ∀ k ∈ ActionKind.all, ∀ k' ∈ ActionKind.all,
      Bytes.ofText (label k) <+: Bytes.ofText (label k') → k = k' := by decide
  exact hall k k.mem_all k' k'.mem_all h

theorem preimage_inj {k k' : ActionKind} {data data' : Bytes}
    (h : ActionHash.preimage (label k) data = ActionHash.preimage (label k') data') :
    k = k' ∧ data = data' := by
  unfold ActionHash.preimage at h
  rw [List.append_assoc, List.append_assoc] at h
  have hlabel := List.prefix_append (Bytes.ofText (label k)) (Bytes.ofNat 4 data.length ++ data)
  have hlabel' := List.prefix_append (Bytes.ofText (label k')) (Bytes.ofNat 4 data'.length ++ data')
  rw [← h] at hlabel'
  have hkind : k = k' := by
    rcases List.prefix_or_prefix_of_prefix hlabel hlabel' with hprefix | hprefix
    · exact label_prefixFree hprefix
    · exact (label_prefixFree hprefix).symm
  subst hkind
  have hrest := List.append_cancel_left h
  exact ⟨rfl, (List.append_inj hrest (by simp)).2⟩

/-- The hashed bytes tell what is left of the action, and nothing else. -/
theorem preimage_eq_iff {a b : Action} : a.preimage = b.preimage ↔ a.asHashed = b.asHashed := by
  constructor
  · intro h
    obtain ⟨hkind, hdata⟩ := preimage_inj h
    rw [← ofHashed_publicData, ← ofHashed_publicData, hkind, hdata]
  · intro h
    rw [← preimage_asHashed a, h, preimage_asHashed]

end Action

/-! ### What a digest tells -/

namespace SessionDigest

/-- The digest after actions in turn. -/
def foldAll (d : SessionDigest) (actions : List Action) : SessionDigest :=
  actions.foldl (fun d a => d.fold a.hash) d

/-- All that is hashed on the way: each action, and its hash behind the digest before it. -/
def hashed (d : SessionDigest) : List Action → List Bytes
  | [] => []
  | a :: rest => a.preimage :: (d.bytes ++ a.hash.bytes) :: hashed (d.fold a.hash) rest

/-- What is hashed in the same place of two sessions has different hashes, unless it is the
same. -/
def Apart (inputs inputs' : List Bytes) : Prop :=
  ∀ x ∈ inputs.zip inputs', Sha512.hash256 x.1 = Sha512.hash256 x.2 → x.1 = x.2

theorem fold_inj {d d' : SessionDigest} {h h' : ActionHash}
    (apart : Sha512.hash256 (d.bytes ++ h.bytes) = Sha512.hash256 (d'.bytes ++ h'.bytes) →
      d.bytes ++ h.bytes = d'.bytes ++ h'.bytes)
    (heq : d.fold h = d'.fold h') : d = d' ∧ h = h' := by
  have hlength : d.bytes.length = d'.bytes.length := d.length_eq.trans d'.length_eq.symm
  obtain ⟨hd, hh⟩ := List.append_inj (apart heq) hlength
  exact ⟨FixedBytes.ext hd, FixedBytes.ext hh⟩

/-- Equal digests come of equal digests by actions that are equal as they are hashed. -/
theorem foldAll_inj {actions actions' : List Action} (hlength : actions.length = actions'.length)
    {d d' : SessionDigest} (apart : Apart (d.hashed actions) (d'.hashed actions'))
    (heq : d.foldAll actions = d'.foldAll actions') :
    d = d' ∧ actions.map Action.asHashed = actions'.map Action.asHashed := by
  induction actions generalizing actions' d d' with
  | nil =>
    obtain rfl := List.length_eq_zero_iff.1 hlength.symm
    exact ⟨heq, rfl⟩
  | cons a rest ih =>
    cases actions' with
    | nil => cases hlength
    | cons b rest' =>
      obtain ⟨hown, hchain, hrest⟩ : _ ∧ _ ∧ Apart _ _ := by
        simpa only [hashed, Apart, List.zip_cons_cons, List.forall_mem_cons] using apart
      obtain ⟨hfold, htail⟩ := ih (Nat.succ.inj hlength) hrest heq
      obtain ⟨rfl, hhash⟩ := fold_inj hchain hfold
      have hfirst := Action.preimage_eq_iff.1 (hown hhash)
      exact ⟨rfl, by rw [List.map_cons, List.map_cons, hfirst, htail]⟩

/-- Actions that are equal as they are hashed lead to equal digests. -/
theorem foldAll_congr {actions actions' : List Action}
    (h : actions.map Action.asHashed = actions'.map Action.asHashed) (d : SessionDigest) :
    d.foldAll actions = d.foldAll actions' := by
  induction actions generalizing actions' d with
  | nil =>
    obtain rfl := List.map_eq_nil_iff.1 h.symm
    rfl
  | cons a rest ih =>
    cases actions' with
    | nil => cases h
    | cons b rest' =>
      obtain ⟨hfirst, hrest⟩ := List.cons.inj h
      have hhash : a.hash = b.hash := congrArg Sha512.hash256 (Action.preimage_eq_iff.2 hfirst)
      show (d.fold a.hash).foldAll rest = (d.fold b.hash).foldAll rest'
      rw [hhash, ih hrest]

end SessionDigest

/-! ### Sessions -/

/-- The actions that a session accepted. -/
def Moment.actions (log : List Moment) : List Action := log.map Moment.action

/-- The digest of a session is that of the actions it accepted. -/
theorem History.digest_eq {others : Device → Device → Prop} {settings : SessionSettings}
    {log : List Moment} {s : Session} {d : Device} (h : History others settings log s d) :
    s.digest = SessionDigest.empty.foldAll (Moment.actions log) := by
  refine h.invariant (P := fun log s => s.digest = SessionDigest.empty.foldAll (Moment.actions log))
    rfl fun log s t d d' random a _ ih _ => ?_
  rw [Moment.actions, List.map_append, SessionDigest.foldAll, List.foldl_append]
  exact congrArg (·.fold a.hash) ih

/-- What is hashed of an action tells the action without its secrets, where a word count
fits into four bytes, and of a word count it tells what four bytes hold. So does the digest
of a session for all the actions that it accepted, compared with a session that accepted as
many, unless there are two inputs in the same place that have the same hash. -/
theorem digests_tell_actions (others others' : Device → Device → Prop)
    (settings settings' : SessionSettings) (log log' : List Moment) (s s' : Session) (d d' : Device)
    (h : History others settings log s d) (h' : History others' settings' log' s' d')
    (hlength : log.length = log'.length)
    (apart : SessionDigest.Apart (SessionDigest.empty.hashed (Moment.actions log))
      (SessionDigest.empty.hashed (Moment.actions log'))) :
    (∀ a b : Action, a.preimage = b.preimage ↔ a.asHashed = b.asHashed) ∧
      (∀ a b : Action, a.CountFits → b.CountFits →
        (a.preimage = b.preimage ↔ a.redacted = b.redacted)) ∧
      (s.digest = s'.digest ↔
        (Moment.actions log).map Action.asHashed = (Moment.actions log').map Action.asHashed) ∧
      ((∀ a ∈ Moment.actions log ++ Moment.actions log', a.CountFits) →
        (Moment.actions log).map Action.redacted ≠ (Moment.actions log').map Action.redacted →
          s.digest ≠ s'.digest) := by
  have hdigest : s.digest = s'.digest ↔
      (Moment.actions log).map Action.asHashed = (Moment.actions log').map Action.asHashed := by
    rw [h.digest_eq, h'.digest_eq]
    constructor
    · intro heq
      have hactions : (Moment.actions log).length = (Moment.actions log').length := by
        rw [Moment.actions, Moment.actions, List.length_map, List.length_map, hlength]
      exact (SessionDigest.foldAll_inj hactions apart heq).2
    · intro hsame
      exact SessionDigest.foldAll_congr hsame _
  refine ⟨fun a b => Action.preimage_eq_iff, fun a b ha hb => ?_, hdigest, fun hfits hne heq => hne ?_⟩
  · rw [Action.preimage_eq_iff, Action.asHashed_of_countFits ha, Action.asHashed_of_countFits hb]
  · have hredacted (l : List Action) (hl : ∀ a ∈ l, a ∈ Moment.actions log ++ Moment.actions log') :
        l.map Action.redacted = l.map Action.asHashed :=
      List.map_congr_left fun a ha => (Action.asHashed_of_countFits (hfits a (hl a ha))).symm
    rw [hredacted _ fun a => List.mem_append_left _, hredacted _ fun a => List.mem_append_right _]
    exact hdigest.1 heq

/-- A device that holds nothing. -/
def emptyDevice : Device := { vault := { authenticator := ⟨fun _ => false⟩ } }

/-- A new session on it accepts an action. -/
theorem exists_history_of_action (a : Action) (accepted : StateTag.idle.accepts a.kind = true) :
    ∃ s d, History (fun _ _ => True) {} [⟨emptyDevice, a⟩] s d := by
  rcases @Session.update_of_accepts {} emptyDevice (.fit 32 []) a accepted with
    ⟨t, d, -, hupdate⟩ | ⟨stopped, -⟩
  · exact ⟨_, _, .acted (.opened emptyDevice) hupdate⟩
  -- nothing is authenticated or confirmed while idle
  · rcases Session.pastWords_of_apply stopped with ⟨_, _, phase, -⟩ | ⟨_, _, _, phase, -⟩
    · cases phase
    · cases phase

theorem apart_scan_recovery : SessionDigest.Apart (SessionDigest.empty.hashed [.startScan])
    (SessionDigest.empty.hashed [.recoverSeed]) := by
  -- each hash is computed once
  have hscan : Action.startScan.hash.bytes =
      Bytes.ofNatBE 32 0x232d43434cc286d349a99425068efc25458ebad8a4d33e36fb090ab80696ca4c := by
    decide +kernel
  have hrecovery : Action.recoverSeed.hash.bytes =
      Bytes.ofNatBE 32 0xcb9d1709d3d434be41971207cd4c89b67b170c9982a8d37c39f9e0b1c67d6c7c := by
    decide +kernel
  have hown : Action.startScan.hash.bytes ≠ Action.recoverSeed.hash.bytes := by
    rw [hscan, hrecovery]
    decide +kernel
  have hchain : Sha512.hash256 (SessionDigest.empty.bytes ++ Action.startScan.hash.bytes) ≠
      Sha512.hash256 (SessionDigest.empty.bytes ++ Action.recoverSeed.hash.bytes) := by
    rw [hscan, hrecovery]
    decide +kernel
  intro x hx heq
  rcases List.mem_cons.1 hx with rfl | hx
  · exact absurd (congrArg FixedBytes.bytes heq) hown
  · obtain rfl := List.mem_singleton.1 hx
    exact absurd heq hchain

/-- One session starts to scan, and another starts to recover a seed. Two authentications
are hashed in the same way. -/
theorem scan_and_recovery_digests : ∃ (s s' : Session) (d d' : Device),
    History (fun _ _ => True) {} [⟨emptyDevice, .startScan⟩] s d ∧
      History (fun _ _ => True) {} [⟨emptyDevice, .recoverSeed⟩] s' d' ∧
      SessionDigest.Apart (SessionDigest.empty.hashed [.startScan])
        (SessionDigest.empty.hashed [.recoverSeed]) ∧
      s.digest ≠ s'.digest ∧
      (Action.authenticate [1] none).preimage = (Action.authenticate [2] (some "x")).preimage := by
  obtain ⟨s, d, scan⟩ := exists_history_of_action .startScan rfl
  obtain ⟨s', d', recovery⟩ := exists_history_of_action .recoverSeed rfl
  obtain ⟨-, hactions, -, hne⟩ :=
    digests_tell_actions _ _ _ _ _ _ s s' d d' scan recovery rfl apart_scan_recovery
  have hfits : ∀ a ∈ [Action.startScan, Action.recoverSeed], a.CountFits := by
    simp [Action.CountFits]
  have hsecret := hactions (.authenticate [1] none) (.authenticate [2] (some "x"))
    (by simp [Action.CountFits]) (by simp [Action.CountFits])
  exact ⟨s, s', d, d', scan, recovery, apart_scan_recovery, hne hfits (by decide), hsecret.2 rfl⟩

/-- A new seed of 12 words is asked for in one session, and in another one of a number of
words of which the lowest four bytes are 12. The first session goes on and the second does
not, and their digests are equal. -/
theorem digests_hide_large_word_count : ∃ (s s' : Session) (d d' : Device),
    History (fun _ _ => True) {} [⟨emptyDevice, .newSeed 12⟩] s d ∧
      History (fun _ _ => True) {} [⟨emptyDevice, .newSeed (2 ^ 32 + 12)⟩] s' d' ∧
      s.tag = .seedNaming ∧ s'.tag = .idle ∧ s.digest = s'.digest ∧
      (Action.newSeed 12).redacted ≠ (Action.newSeed (2 ^ 32 + 12)).redacted := by
  have step : Session.Step (Session.cleared {}) emptyDevice (.fit 32 []) (.newSeed 12) _ _ :=
    .newSeed rfl
  have step' : Session.Step (Session.cleared {}) emptyDevice (.fit 32 []) (.newSeed (2 ^ 32 + 12)) _ _ :=
    .newSeed rfl
  have hhash : (Action.newSeed 12).hash = (Action.newSeed (2 ^ 32 + 12)).hash :=
    congrArg Sha512.hash256 (Action.preimage_eq_iff.2 rfl)
  refine ⟨_, _, _, _, .acted (.opened emptyDevice) (step.update_eq rfl),
    .acted (.opened emptyDevice) (step'.update_eq rfl), rfl, rfl, ?_, by decide⟩
  exact congrArg SessionDigest.empty.fold hhash

end ColdSigner
