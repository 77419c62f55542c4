import ColdSigner.Proofs.Vault.Operations
import ColdSigner.Proofs.Wire.Consumption
import Mathlib.Logic.Basic

/-! What operations change.

What succeeds has passed all of its checks: there is one lemma for each operation that
says what they are and what comes of it. A vault changes in few ways, each one told by
an event, and `Change` says of each what was checked before. `happened_run` tells what
happens in an operation, event by event. What holds of every vault is then proved change
by change, without another look at the operations. -/
namespace ColdSigner.Vault

/-! ### Operations that succeed -/

theorem authenticate_eq_ok {v : Vault} {proof : Bytes} :
    v.authenticate proof = .ok () ↔ v.authenticator.verifies proof = true := by
  unfold authenticate
  split
  · next h => exact iff_of_true rfl h
  · next h => exact iff_of_false (by simp) h

theorem seed_eq_ok {v : Vault} {h : SeedHandle} {s : Seed} :
    v.seed h = .ok s ↔ v.seeds.find? h = some s := by
  unfold Vault.seed
  split
  · next t ht => rw [ht, Except.ok.injEq, Option.some.injEq]
  · next hnone => simp [hnone]

theorem sign_eq_ok {v : Vault} {key : DerivedKey} {password : Option String}
    {proof message : Bytes} {signature : Signature} :
    v.sign key password proof message = .ok signature ↔
      v.authenticator.verifies proof = true ∧ ¬ (key.hasPassword = true ∧ password = none) ∧
        ∃ seed path k, v.seeds.find? key.seed = some seed ∧
          DerivationPath.parse key.path = .ok path ∧
          SecretKey.derive seed.entropy (path.withPassword password) key.key.scheme = .ok k ∧
          k.publicKey = key.key ∧ signature = k.sign message := by
  simp only [sign, bind_eq_ok]
  constructor
  · intro h
    obtain ⟨_, hproof, h⟩ := h
    split at h
    · cases h
    · next hpassword =>
      simp only [bind_eq_ok, parsePath, secretKey, mapError_eq_ok, seed_eq_ok] at h
      obtain ⟨path, hpath, k, ⟨seed, hseed, hk⟩, h⟩ := h
      split at h
      · next hkey =>
        exact ⟨authenticate_eq_ok.1 hproof, hpassword, seed, path, k, hseed, hpath, hk, hkey,
          (pure_eq_ok.1 h).symm⟩
      · split at h <;> cases h
  · intro h
    obtain ⟨hproof, hpassword, seed, path, k, hseed, hpath, hk, hkey, rfl⟩ := h
    refine ⟨(), authenticate_eq_ok.2 hproof, ?_⟩
    rw [if_neg hpassword]
    simp only [bind_eq_ok, parsePath, secretKey, mapError_eq_ok, seed_eq_ok]
    exact ⟨path, hpath, k, ⟨seed, hseed, hk⟩, by rw [if_pos hkey]; rfl⟩

theorem exportEntropy_eq_ok {v : Vault} {h : SeedHandle} {proof entropy : Bytes} :
    v.exportEntropy h proof = .ok entropy ↔ v.authenticator.verifies proof = true ∧
      ∃ s, v.seeds.find? h = some s ∧ s.entropy = entropy := by
  simp only [exportEntropy, bind_eq_ok, pure_eq_ok, seed_eq_ok]
  constructor
  · rintro ⟨_, hproof, hs⟩
    exact ⟨authenticate_eq_ok.1 hproof, hs⟩
  · rintro ⟨hproof, hs⟩
    exact ⟨(), authenticate_eq_ok.2 hproof, hs⟩

theorem exportPhrase_eq_ok {v : Vault} {h : SeedHandle} {proof : Bytes} {phrase : String} :
    v.exportPhrase h proof = .ok phrase ↔ v.authenticator.verifies proof = true ∧
      ∃ s, v.seeds.find? h = some s ∧ Phrase.render s.entropy = phrase := by
  simp only [exportPhrase, bind_eq_ok, pure_eq_ok, exportEntropy_eq_ok]
  constructor
  · rintro ⟨entropy, ⟨hproof, s, hs, rfl⟩, hphrase⟩
    exact ⟨hproof, s, hs, hphrase⟩
  · rintro ⟨hproof, s, hs, hphrase⟩
    exact ⟨s.entropy, ⟨hproof, s, hs, rfl⟩, hphrase⟩

theorem importSeed_eq_ok {v v' : Vault} {name : String} {entropy : Bytes} {h : SeedHandle} :
    v.importSeed name entropy = .ok (h, v') ↔
      isBlankName name = false ∧ entropy.length ∈ SecretKey.entropyLengths ∧
        (∀ s ∈ v.seeds.values, s.name ≠ name) ∧ v.next.toNat + 1 < UInt32.size ∧ h = ⟨v.next⟩ ∧
          v' = { v with next := v.next + 1, seeds := v.seeds.insert ⟨v.next⟩ ⟨name, entropy⟩ } := by
  simp only [importSeed]
  constructor
  · intro hok
    split at hok
    · cases hok
    · next named =>
      split at hok
      · cases hok
      · next length =>
        split at hok
        · cases hok
        · next fresh =>
          split at hok
          · next room =>
            obtain ⟨rfl, rfl⟩ := Prod.mk.inj (Except.ok.inj hok)
            exact ⟨Bool.eq_false_iff.2 named, not_not.1 length, by simpa using fresh, room, rfl, rfl⟩
          · cases hok
  · rintro ⟨named, length, fresh, room, rfl, rfl⟩
    rw [if_neg (Bool.eq_false_iff.1 named), if_neg (not_not_intro length),
      if_neg (by simpa using fresh), if_pos room]

/-- An import stops the program only when it is given the last number. -/
theorem size_le_of_importSeed {v : Vault} {name : String} {entropy : Bytes}
    (stopped : v.importSeed name entropy = .error .overflow) : UInt32.size ≤ v.next.toNat + 1 := by
  refine Nat.le_of_not_lt fun room => ?_
  unfold importSeed at stopped
  rw [if_pos room] at stopped
  split at stopped
  · cases stopped
  · split at stopped
    · cases stopped
    · split at stopped <;> cases stopped

theorem size_le_of_importPhrase {v : Vault} {name phrase : String}
    (stopped : v.importPhrase name phrase = .error .overflow) : UInt32.size ≤ v.next.toNat + 1 := by
  unfold importPhrase at stopped
  split at stopped
  · exact size_le_of_importSeed stopped
  · cases stopped

theorem importPhrase_eq_ok {v v' : Vault} {name phrase : String} {h : SeedHandle} :
    v.importPhrase name phrase = .ok (h, v') ↔
      ∃ entropy, Phrase.parse phrase = .ok entropy ∧ v.importSeed name entropy = .ok (h, v') := by
  unfold importPhrase
  cases Phrase.parse phrase <;> simp

theorem delete_eq_ok {v v' : Vault} {h : SeedHandle} :
    v.delete h = .ok v' ↔ (∃ s, v.seeds.find? h = some s) ∧
      v' = { v with
        seeds := v.seeds.erase h
        addresses := v.addresses.filter fun _ d => d.seed ≠ h } := by
  simp only [delete, bind_eq_ok, pure_eq_ok, seed_eq_ok, exists_and_right, @eq_comm _ v']

theorem parsePath_eq_ok {path : String} {p : DerivationPath} :
    parsePath path = .ok p ↔ DerivationPath.parse? path = some p := by
  unfold parsePath DerivationPath.parse
  cases DerivationPath.parse? path <;> simp

theorem secretKey_eq_ok {v : Vault} {h : SeedHandle} {p : DerivationPath} {scheme : Scheme}
    {k : SecretKey} :
    v.secretKey h p scheme = .ok k ↔
      ∃ s, v.seeds.find? h = some s ∧ SecretKey.derive s.entropy p scheme = .ok k := by
  simp only [secretKey, bind_eq_ok, mapError_eq_ok, seed_eq_ok]

theorem derive_eq_ok {v : Vault} {h : SeedHandle} {path : String} {scheme : Scheme}
    {key : DerivedKey} :
    v.derive h path scheme = .ok key ↔ ∃ p, DerivationPath.parse? path = some p ∧
      ∃ k, v.secretKey h p scheme = .ok k ∧ key = ⟨h, p.path, p.hasPassword, k.publicKey⟩ := by
  simp only [derive, bind_eq_ok, pure_eq_ok, parsePath_eq_ok, @eq_comm _ _ key]

theorem addressesOf_eq_ok {v : Vault} {h : SeedHandle} {addresses : List (PublicKey × AddressDetails)} :
    v.addressesOf h = .ok addresses ↔ (∃ s, v.seeds.find? h = some s) ∧
      addresses = v.addresses.entries.filter fun e => e.2.seed = h := by
  simp only [addressesOf, bind_eq_ok, pure_eq_ok, seed_eq_ok, exists_and_right, @eq_comm _ addresses]

/-- A key that is listed is enabled on one more network, if it is not yet. -/
def Enables (v : Vault) (key : PublicKey) (network : NetworkId) (d : AddressDetails) (v' : Vault) :
    Prop :=
  (network ∈ d.networks ∧ v' = v) ∨
    network ∉ d.networks ∧ v' = v.setAddress key { d with networks := d.networks ++ [network] }

theorem createAddress_eq_ok {v v' : Vault} {h : SeedHandle} {path : String} {network : NetworkId}
    {specs : NetworkSpecs} {key : PublicKey} :
    v.createAddress h path network specs = .ok (key, v') ↔
      ∃ p s k, DerivationPath.parse? path = some p ∧ v.seeds.find? h = some s ∧
        SecretKey.derive s.entropy p specs.scheme = .ok k ∧ key = k.publicKey ∧
          ((v.lookup key = none ∧
              v' = v.setAddress key ⟨h, s.name, p.path, p.hasPassword, [network]⟩) ∨
            ∃ d, v.lookup key = some d ∧ d.seed = h ∧ d.path = p.path ∧
              v.Enables key network d v') := by
  simp only [createAddress, bind_eq_ok, parsePath_eq_ok, secretKey_eq_ok, seed_eq_ok]
  constructor
  · rintro ⟨p, hp, k, ⟨s, hs, hk⟩, t, ht, hok⟩
    obtain rfl := Option.some.inj (hs.symm.trans ht)
    split at hok
    · next hnew =>
      obtain ⟨rfl, rfl⟩ := Prod.mk.inj (pure_eq_ok.1 hok)
      exact ⟨p, s, k, hp, hs, hk, rfl, .inl ⟨hnew, rfl⟩⟩
    · next d hd =>
      split at hok
      · cases hok
      · next same =>
        obtain ⟨hseed, hpath⟩ := not_or.1 same
        split at hok
        · next hmem =>
          obtain ⟨rfl, rfl⟩ := Prod.mk.inj (pure_eq_ok.1 hok)
          exact ⟨p, s, k, hp, hs, hk, rfl,
            .inr ⟨d, hd, not_ne_iff.1 hseed, not_ne_iff.1 hpath, .inl ⟨hmem, rfl⟩⟩⟩
        · next hmem =>
          obtain ⟨rfl, rfl⟩ := Prod.mk.inj (pure_eq_ok.1 hok)
          exact ⟨p, s, k, hp, hs, hk, rfl,
            .inr ⟨d, hd, not_ne_iff.1 hseed, not_ne_iff.1 hpath, .inr ⟨hmem, rfl⟩⟩⟩
  · rintro ⟨p, s, k, hp, hs, hk, rfl, hcases⟩
    refine ⟨p, hp, k, ⟨s, hs, hk⟩, s, hs, ?_⟩
    rcases hcases with ⟨hnew, rfl⟩ | ⟨d, hd, hseed, hpath, henables⟩
    · rw [hnew]
      rfl
    · rw [hd]
      dsimp only
      rw [if_neg (by simp [hseed, hpath])]
      rcases henables with ⟨hmem, rfl⟩ | ⟨hmem, rfl⟩
      · rw [if_pos hmem]
        rfl
      · rw [if_neg hmem]
        rfl

/-- A key that is listed is disabled on a network, and dropped with the last one. -/
def Disables (v : Vault) (key : PublicKey) (network : NetworkId) (d : AddressDetails) (v' : Vault) :
    Prop :=
  (d.networks.filter (· ≠ network) = [] ∧ v' = { v with addresses := v.addresses.erase key }) ∨
    d.networks.filter (· ≠ network) ≠ [] ∧
      v' = v.setAddress key { d with networks := d.networks.filter (· ≠ network) }

theorem removeAddress_eq_ok {v v' : Vault} {key : PublicKey} {network : NetworkId} :
    v.removeAddress key network = .ok v' ↔
      ∃ d, v.lookup key = some d ∧ v.Disables key network d v' := by
  simp only [removeAddress]
  constructor
  · intro hok
    split at hok
    · cases hok
    · next d hd =>
      split at hok
      · next hlast => exact ⟨d, hd, .inl ⟨List.isEmpty_iff.1 hlast, (Except.ok.inj hok).symm⟩⟩
      · next hlast =>
        exact ⟨d, hd, .inr ⟨fun hnil => hlast (List.isEmpty_iff.2 hnil), (Except.ok.inj hok).symm⟩⟩
  · rintro ⟨d, hd, ⟨hlast, rfl⟩ | ⟨hlast, rfl⟩⟩
    · rw [hd]
      exact if_pos (List.isEmpty_iff.2 hlast)
    · rw [hd]
      exact if_neg fun hnil => hlast (List.isEmpty_iff.1 hnil)

/-! ### Events -/

/-- What happens to a seed or to an address. -/
inductive Event where
  | imported (h : SeedHandle)
  | deleted (h : SeedHandle)
  | created (h : SeedHandle) (key : PublicKey) (network : NetworkId)
  | removed (key : PublicKey) (network : NetworkId)

def Event.isImport : Event → Bool
  | .imported _ => true
  | _ => false

/-- A change, after everything was checked. -/
inductive Change (v : Vault) : Event → Vault → Prop where
  | imported {name : String} {entropy : Bytes} (named : isBlankName name = false)
      (length : entropy.length ∈ SecretKey.entropyLengths)
      (fresh : ∀ s ∈ v.seeds.values, s.name ≠ name) (room : v.next.toNat + 1 < UInt32.size) :
      Change v (.imported ⟨v.next⟩)
        { v with next := v.next + 1, seeds := v.seeds.insert ⟨v.next⟩ ⟨name, entropy⟩ }
  | deleted {h : SeedHandle} {s : Seed} (live : v.seeds.find? h = some s) :
      Change v (.deleted h) { v with
        seeds := v.seeds.erase h
        addresses := v.addresses.filter fun _ d => d.seed ≠ h }
  | listed {h : SeedHandle} {s : Seed} {path : String} {p : DerivationPath} {scheme : Scheme}
      {k : SecretKey} {network : NetworkId} (parsed : DerivationPath.parse? path = some p)
      (live : v.seeds.find? h = some s) (derived : SecretKey.derive s.entropy p scheme = .ok k)
      (new : v.lookup k.publicKey = none) :
      Change v (.created h k.publicKey network)
        (v.setAddress k.publicKey ⟨h, s.name, p.path, p.hasPassword, [network]⟩)
  | enabled {key : PublicKey} {network : NetworkId} {d : AddressDetails} {v' : Vault}
      (listed : v.lookup key = some d) (enables : v.Enables key network d v') :
      Change v (.created d.seed key network) v'
  | disabled {key : PublicKey} {network : NetworkId} {d : AddressDetails} {v' : Vault}
      (listed : v.lookup key = some d) (disables : v.Disables key network d v') :
      Change v (.removed key network) v'

/-- Changes in turn. -/
inductive Changes : Vault → List Event → Vault → Prop where
  | none (v : Vault) : Changes v [] v
  | more {v v' v'' : Vault} {e : Event} {events : List Event} (first : v.Change e v')
      (others : Changes v' events v'') : Changes v (e :: events) v''

namespace Changes

variable {v v' v'' : Vault} {events more : List Event}

theorem single {e : Event} (h : v.Change e v') : v.Changes [e] v' := .more h (.none v')

theorem append (h : v.Changes events v') (h' : v'.Changes more v'') :
    v.Changes (events ++ more) v'' := by
  induction h with
  | none => exact h'
  | more first _ ih => exact .more first (ih h')

/-- What every change keeps, all changes keep. -/
theorem keep {P : Vault → Prop} (step : ∀ v e v', v.Change e v' → P v → P v')
    (h : v.Changes events v') (start : P v) : P v' := by
  induction h with
  | none => exact start
  | more first _ ih => exact ih (step _ _ _ first start)

end Changes

theorem toNat_next_add_one {v : Vault} (room : v.next.toNat + 1 < UInt32.size) :
    (v.next + 1).toNat = v.next.toNat + 1 := by
  rw [UInt32.toNat_add]
  exact Nat.mod_eq_of_lt room

/-- Handles are numbered as seeds are kept, and no number is taken back. -/
theorem Change.next_eq {v v' : Vault} {e : Event} (h : v.Change e v') :
    v'.next.toNat = v.next.toNat + [e].countP Event.isImport := by
  cases h with
  | imported _ _ _ room => exact toNat_next_add_one room
  | deleted | listed => rfl
  | enabled _ enables => rcases enables with ⟨-, rfl⟩ | ⟨-, rfl⟩ <;> rfl
  | disabled _ disables => rcases disables with ⟨-, rfl⟩ | ⟨-, rfl⟩ <;> rfl

theorem Changes.next_eq {v v' : Vault} {events : List Event} (h : v.Changes events v') :
    v'.next.toNat = v.next.toNat + events.countP Event.isImport := by
  induction h with
  | none => rfl
  | @more v v' v'' e events first _ ih =>
    rw [ih, first.next_eq, Nat.add_assoc, ← List.countP_append, List.singleton_append]

theorem Changes.next_eq_of_new {authenticator : Authenticator} {v' : Vault} {events : List Event}
    (h : Changes { authenticator } events v') : v'.next.toNat = events.countP Event.isImport :=
  h.next_eq.trans (Nat.zero_add _)

/-! ### Operations -/

theorem change_of_importSeed {v v' : Vault} {name : String} {entropy : Bytes} {h : SeedHandle}
    (hok : v.importSeed name entropy = .ok (h, v')) : v.Change (.imported h) v' := by
  obtain ⟨named, length, fresh, room, rfl, rfl⟩ := importSeed_eq_ok.1 hok
  exact .imported named length fresh room

theorem change_of_delete {v v' : Vault} {h : SeedHandle} (hok : v.delete h = .ok v') :
    v.Change (.deleted h) v' := by
  obtain ⟨⟨s, live⟩, rfl⟩ := delete_eq_ok.1 hok
  exact .deleted live

theorem change_of_createAddress {v v' : Vault} {h : SeedHandle} {path : String} {network : NetworkId}
    {specs : NetworkSpecs} {key : PublicKey}
    (hok : v.createAddress h path network specs = .ok (key, v')) :
    v.Change (.created h key network) v' := by
  obtain ⟨p, s, k, parsed, live, derived, rfl, ⟨new, rfl⟩ | ⟨d, listed, rfl, -, enables⟩⟩ :=
    createAddress_eq_ok.1 hok
  · exact .listed parsed live derived new
  · exact .enabled listed enables

theorem change_of_removeAddress {v v' : Vault} {key : PublicKey} {network : NetworkId}
    (hok : v.removeAddress key network = .ok v') : v.Change (.removed key network) v' := by
  obtain ⟨d, listed, disables⟩ := removeAddress_eq_ok.1 hok
  exact .disabled listed disables

/-! ### History -/

/-- Something that happened to a vault, and the vault as it was before. -/
structure Happening where
  before : Vault
  event : Event

/-- What happens where an operation succeeds. -/
def noting {α : Type} (v : Vault) (event : α → Event) : Except VaultError (α × Vault) → List Happening
  | .ok (x, _) => [⟨v, event x⟩]
  | .error _ => []

/-- The addresses that `createAll` creates, one by one. -/
def creations (v : Vault) (h : SeedHandle) : List (Entry × String) → List Happening
  | [] => []
  | (e, path) :: rest =>
    match v.createAddress h path e.network e.specs with
    | .ok (key, v') => ⟨v, .created h key e.network⟩ :: creations v' h rest
    | .error _ => if path.isEmpty then [] else creations v h rest

/-- What happens in an operation. -/
def happenings (v : Vault) : Operation → List Happening
  | .importSeed name entropy => v.noting .imported (v.importSeed name entropy)
  | .importPhrase name phrase => v.noting .imported (v.importPhrase name phrase)
  | .delete h => v.noting (fun _ => .deleted h) ((v.delete h).map ((), ·))
  | .createAddress h path network specs =>
    v.noting (.created h · network) (v.createAddress h path network specs)
  | .populateDefaults h networks templates =>
    v.creations h (networks.flatMap fun e => (defaultPaths e.specs templates).map fun p => (e, p))
  | .removeAddress key network =>
    v.noting (fun _ => .removed key network) ((v.removeAddress key network).map ((), ·))
  | _ => []

/-- One thing happened after another, and led from a vault to the next. -/
inductive Happened : Vault → List Happening → Vault → Prop where
  | none (v : Vault) : Happened v [] v
  | more {v v' v'' : Vault} {e : Event} {past : List Happening} (first : v.Change e v')
      (others : Happened v' past v'') : Happened v (⟨v, e⟩ :: past) v''

variable {v v' v'' : Vault}

theorem Happened.append {past more : List Happening} (h : v.Happened past v')
    (h' : v'.Happened more v'') : v.Happened (past ++ more) v'' := by
  induction h with
  | none => exact h'
  | more first _ ih => exact .more first (ih h')

theorem Happened.changes {past : List Happening} (h : v.Happened past v') :
    v.Changes (past.map (·.event)) v' := by
  induction h with
  | none => exact .none _
  | more first _ ih => exact .more first ih

theorem happened_noting {α β : Type} {answer : α → β} {event : α → Event}
    {x : Except VaultError (α × Vault)} (step : ∀ a v', x = .ok (a, v') → v.Change (event a) v') :
    v.Happened (v.noting event x) (v.writing answer x).2 := by
  cases x with
  | error => exact .none v
  | ok done => exact .more (step done.1 done.2 rfl) (.none _)

theorem happened_createAll (v : Vault) (h : SeedHandle) (created : List PublicKey)
    (paths : List (Entry × String)) :
    v.Happened (v.creations h paths) (v.createAll h created paths).1 := by
  induction paths generalizing v created with
  | nil => exact .none v
  | cons first rest ih =>
    obtain ⟨e, path⟩ := first
    rw [createAll, creations]
    cases done : v.createAddress h path e.network e.specs with
    | ok x => exact .more (change_of_createAddress done) (ih x.2 (x.1 :: created))
    | error f =>
      dsimp only
      split
      · exact .none v
      · exact ih v created

theorem happened_run (v : Vault) (op : Operation) : v.Happened (v.happenings op) (v.run op).2 := by
  cases op with
  | importSeed => exact happened_noting fun h v' done => change_of_importSeed done
  | importPhrase =>
    refine happened_noting fun h v' done => ?_
    obtain ⟨entropy, -, done⟩ := importPhrase_eq_ok.1 done
    exact change_of_importSeed done
  | delete =>
    refine happened_noting fun _ v' done => ?_
    obtain ⟨_, hdelete, hv'⟩ := map_eq_ok.1 done
    obtain ⟨-, rfl⟩ := Prod.mk.inj hv'
    exact change_of_delete hdelete
  | createAddress => exact happened_noting fun key v' done => change_of_createAddress done
  | populateDefaults => exact happened_createAll ..
  | removeAddress =>
    refine happened_noting fun _ v' done => ?_
    obtain ⟨_, hremove, hv'⟩ := map_eq_ok.1 done
    obtain ⟨-, rfl⟩ := Prod.mk.inj hv'
    exact change_of_removeAddress hremove
  | _ => exact .none v

theorem exists_of_mem_creations {h : SeedHandle} {paths : List (Entry × String)} :
    ∀ x ∈ v.creations h paths, ∃ key network, x.event = .created h key network := by
  induction paths generalizing v with
  | nil => nofun
  | cons first rest ih =>
    obtain ⟨e, path⟩ := first
    rw [creations]
    split
    · next key v' _ => exact List.forall_mem_cons.2 ⟨⟨key, e.network, rfl⟩, ih⟩
    · split
      · nofun
      · exact ih

/-- Default addresses are created like any others, as far as it goes. -/
theorem changes_createAll (v : Vault) (h : SeedHandle) (created : List PublicKey)
    (paths : List (Entry × String)) :
    ∃ events, v.Changes events (v.createAll h created paths).1 ∧
      ∀ e ∈ events, ∃ key network, e = .created h key network :=
  ⟨_, (v.happened_createAll h created paths).changes, List.forall_mem_map.2 exists_of_mem_creations⟩

/-- An operation imports at most one seed, and only if it is to. -/
theorem countP_isImport_happenings (v : Vault) (op : Operation) :
    ((v.happenings op).map (·.event)).countP Event.isImport ≤ [op].countP Operation.isImport := by
  have hnoting {α : Type} {event : α → Event} {x : Except VaultError (α × Vault)} {n : Nat}
      (h : ∀ a, [event a].countP Event.isImport ≤ n) :
      ((v.noting event x).map (·.event)).countP Event.isImport ≤ n := by
    cases x with
    | error => exact Nat.zero_le _
    | ok done => exact h done.1
  cases op with
  | importSeed | importPhrase | delete | createAddress | removeAddress =>
    exact hnoting fun _ => Nat.le_refl _
  | populateDefaults =>
    refine Nat.le_of_eq (List.countP_eq_zero.2 (List.forall_mem_map.2 fun x hx => ?_))
    obtain ⟨key, network, hevent⟩ := exists_of_mem_creations x hx
    rw [hevent]
    exact Bool.false_ne_true
  | _ => exact Nat.zero_le _

/-- Every operation leads by changes from a vault to the next, and keeps at most one
seed, where it imports. -/
theorem changes_run (v : Vault) (op : Operation) :
    ∃ events, v.Changes events (v.run op).2 ∧
      events.countP Event.isImport ≤ [op].countP Operation.isImport :=
  ⟨_, (v.happened_run op).changes, v.countP_isImport_happenings op⟩

theorem changes_after (v : Vault) (ops : List Operation) :
    ∃ events, v.Changes events (v.after ops) ∧
      events.countP Event.isImport ≤ ops.countP Operation.isImport := by
  induction ops generalizing v with
  | nil => exact ⟨[], .none v, Nat.le_refl _⟩
  | cons op ops ih =>
    obtain ⟨events, hfirst, hcount⟩ := v.changes_run op
    obtain ⟨more, hrest, hmore⟩ := ih (v.run op).2
    refine ⟨events ++ more, hfirst.append hrest, ?_⟩
    rw [List.countP_append, ← List.singleton_append, List.countP_append]
    exact Nat.add_le_add hcount hmore

end ColdSigner.Vault
