import ColdSigner.Proofs.Session.Steps
import ColdSigner.Proofs.Vault.Soundness

/-! Devices that come about.

A device starts with an empty vault. From then on its vault is asked this and that, its
registry changes, and sessions act on it. What sessions do to the vault can be asked of
it too, so that what holds of every vault holds of it. Each seed that was to be kept is
counted on the way, and the handles that were given out are no more than these. -/
namespace ColdSigner

open Vault

/-- Whether an action keeps a seed, if it can. -/
def Action.isImport : Action → Bool
  | .confirmSeed => true
  | _ => false

/-! ### What sessions do to the vault -/

/-- With its default addresses a new seed is one that was to be kept. -/
theorem Vault.changes_populateDefaults {v v' : Vault} {name phrase : String} {seed : SeedHandle}
    (kept : v.importPhrase name phrase = .ok (seed, v')) (networks : List Entry)
    (templates : List String) : ∃ events,
      v.Changes events (v'.populateDefaults seed networks templates).1 ∧
        events.countP Event.isImport = 1 := by
  obtain ⟨entropy, -, kept⟩ := importPhrase_eq_ok.1 kept
  obtain ⟨events, created, hevents⟩ := v'.changes_createAll seed []
    (networks.flatMap fun e => (defaultPaths e.specs templates).map fun p => (e, p))
  have hnone : events.countP Event.isImport = 0 := by
    refine List.countP_eq_zero.2 fun e he => ?_
    obtain ⟨key, network, rfl⟩ := hevents e he
    exact Bool.false_ne_true
  refine ⟨.imported seed :: events, .more (change_of_importSeed kept) created, ?_⟩
  rw [List.countP_cons, hnone]
  rfl

/-- A new seed is kept with some of its addresses, and may be deleted again. -/
theorem Session.confirmSeed_changes {s t : Session} {d d' : Device} {name phrase : String}
    (ended : s.confirmSeed d name phrase = some (t, d')) :
    ∃ events, d.vault.Changes events d'.vault ∧ events.countP Event.isImport ≤ 1 := by
  cases confirms_of_confirmSeed ended with
  | refused => exact ⟨[], .none _, Nat.zero_le _⟩
  | kept kept created =>
    obtain ⟨events, changes, hcount⟩ := changes_populateDefaults kept _ _
    rw [created] at changes
    exact ⟨events, changes, Nat.le_of_eq hcount⟩
  | @takenBack seed _ v' _ kept failed =>
    obtain ⟨events, changes, hcount⟩ := changes_populateDefaults kept _ _
    rw [failed] at changes
    show ∃ events, d.vault.Changes events ((v'.delete seed).toOption.getD v') ∧ _
    cases hdelete : v'.delete seed with
    | error => exact ⟨events, changes, Nat.le_of_eq hcount⟩
    | ok v'' =>
      refine ⟨_, changes.append (.single (change_of_delete hdelete)), ?_⟩
      rw [List.countP_append, hcount]
      exact Nat.le_refl _

theorem Session.deleteSeed_changes (s : Session) (d : Device) (name : String) (proof : Bytes) :
    ∃ events, d.vault.Changes events (s.deleteSeed d name proof).2.vault ∧
      events.countP Event.isImport = 0 := by
  unfold deleteSeed
  dsimp only
  split
  · next v hok =>
    obtain ⟨_, -, hok⟩ := bind_eq_ok.1 hok
    obtain ⟨h, -, hok⟩ := bind_eq_ok.1 hok
    exact ⟨_, .single (change_of_delete hok), rfl⟩
  · exact ⟨[], .none _, rfl⟩

/-- An action changes the vault as it could be asked to, and keeps at most one seed. -/
theorem Session.Step.vault_changes {s t : Session} {d d' : Device} {random : FixedBytes 32} {a : Action}
    (step : Step s d random a t d') : ∃ events, d.vault.Changes events d'.vault ∧
      events.countP Event.isImport ≤ [a].countP Action.isImport := by
  cases step with
  | approve =>
    unfold Session.approve
    split
    · exact ⟨[], .none _, Nat.zero_le _⟩
    · split <;> exact ⟨[], .none _, Nat.zero_le _⟩
  | confirmSeed _ ended => exact confirmSeed_changes ended
  | deleteSeed =>
    obtain ⟨events, changes, hnone⟩ := s.deleteSeed_changes d _ _
    exact ⟨events, changes, hnone ▸ Nat.zero_le _⟩
  | _ => exact ⟨[], .none _, Nat.zero_le _⟩

/-! ### Devices -/

/-- The devices that can come about, with the number of seeds that were to be kept until then. -/
inductive Device.ReachedAfter : Nat → Device → Prop where
  | new (authenticator : Authenticator) (registry : Registry) :
      ReachedAfter 0 { vault := { authenticator }, registry }
  | asked {imports : Nat} {d : Device} (before : d.ReachedAfter imports) (op : Vault.Operation) :
      ReachedAfter (imports + [op].countP Operation.isImport)
        { d with vault := (d.vault.run op).2 }
  | loaded {imports : Nat} {d : Device} (before : d.ReachedAfter imports) (registry : Registry) :
      ReachedAfter imports { d with registry }
  | acted {imports : Nat} {d d' : Device} {s s' : Session} {random : FixedBytes 32} {a : Action}
      (before : d.ReachedAfter imports) (done : s.update d random a = .ok (s', d')) :
      ReachedAfter (imports + [a].countP Action.isImport) d'

/-- The devices that can come about. -/
def Device.Reached (d : Device) : Prop := ∃ imports, d.ReachedAfter imports

namespace Device.ReachedAfter

variable {imports : Nat} {d : Device}

theorem reached (h : d.ReachedAfter imports) : d.Reached := ⟨imports, h⟩

/-- The vault of a device was changed by single changes, and kept no more seeds than it was to. -/
theorem changes (h : d.ReachedAfter imports) : ∃ authenticator events,
    Changes { authenticator } events d.vault ∧ events.countP Event.isImport ≤ imports := by
  induction h with
  | new authenticator => exact ⟨authenticator, [], .none _, Nat.le_refl _⟩
  | @asked _ d _ op ih =>
    obtain ⟨authenticator, events, before, hcount⟩ := ih
    obtain ⟨more, after, hmore⟩ := d.vault.changes_run op
    refine ⟨authenticator, events ++ more, before.append after, ?_⟩
    rw [List.countP_append]
    exact Nat.add_le_add hcount hmore
  | loaded _ _ ih => exact ih
  | acted _ done ih =>
    obtain ⟨authenticator, events, before, hcount⟩ := ih
    obtain ⟨t, step, -⟩ := Session.update_eq_ok done
    obtain ⟨more, after, hmore⟩ := step.vault_changes
    refine ⟨authenticator, events ++ more, before.append after, ?_⟩
    rw [List.countP_append]
    exact Nat.add_le_add hcount hmore

/-- No more handles were given out than seeds were to be kept. -/
theorem next_le (h : d.ReachedAfter imports) : d.vault.next.toNat ≤ imports := by
  obtain ⟨authenticator, events, changes, hcount⟩ := h.changes
  rw [changes.next_eq_of_new]
  exact hcount

end Device.ReachedAfter

namespace Device.Reached

variable {d d' : Device} {v' : Vault} {h : SeedHandle}

theorem asked (before : d.Reached) (op : Vault.Operation) :
    Reached { d with vault := (d.vault.run op).2 } := by
  obtain ⟨imports, before⟩ := before
  exact ⟨_, before.asked op⟩

theorem loaded (before : d.Reached) (registry : Registry) : Reached { d with registry } := by
  obtain ⟨imports, before⟩ := before
  exact ⟨imports, before.loaded registry⟩

theorem acted {s s' : Session} {random : FixedBytes 32} {a : Action} (before : d.Reached)
    (done : s.update d random a = .ok (s', d')) : d'.Reached := by
  obtain ⟨imports, before⟩ := before
  exact ⟨_, before.acted done⟩

/-- What holds of an empty vault, and is kept by every change, holds of every device. -/
theorem keep {P : Vault → Prop} (h : d.Reached) (empty : ∀ authenticator, P { authenticator })
    (step : ∀ v e v', v.Change e v' → P v → P v') : P d.vault := by
  obtain ⟨imports, h⟩ := h
  obtain ⟨authenticator, events, changes, -⟩ := h.changes
  exact changes.keep step (empty authenticator)

/-- The vault of a device is sound, whatever became of the device. -/
theorem sound (h : d.Reached) : d.vault.Sound :=
  h.keep sound_empty fun _ _ _ change => change.sound

end Device.Reached

section Writing

variable {imports : Nat} {d : Device} {v' : Vault} {h : SeedHandle}

theorem Device.ReachedAfter.importSeed (before : d.ReachedAfter imports) {name : String}
    {entropy : Bytes} (done : d.vault.importSeed name entropy = .ok (h, v')) :
    ReachedAfter (imports + 1) { d with vault := v' } := by
  have hrun : (d.vault.run (.importSeed name entropy)).2 = v' := by
    rw [run, done]
    rfl
  exact hrun ▸ before.asked (.importSeed name entropy)

theorem Device.ReachedAfter.createAddress (before : d.ReachedAfter imports) {path : String}
    {network : NetworkId} {specs : NetworkSpecs} {key : PublicKey}
    (done : d.vault.createAddress h path network specs = .ok (key, v')) :
    ReachedAfter imports { d with vault := v' } := by
  have hrun : (d.vault.run (.createAddress h path network specs)).2 = v' := by
    rw [run, done]
    rfl
  exact hrun ▸ before.asked (.createAddress h path network specs)

end Writing

end ColdSigner
