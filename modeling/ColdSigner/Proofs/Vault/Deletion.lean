import ColdSigner.Proofs.Vault.Lasting

/-! What is left of a seed that was deleted.

A handle is a number that was given out, and the next seed gets a higher one. So a seed
that is gone stays gone. Whatever asks for a seed has an answer only where it is there
(`live_of_asks`), and an answer names only seeds that are there (`Sound.live_of_names`):
the handle of a deleted seed opens nothing, and is never heard of again. -/
namespace ColdSigner.Vault

variable {v v' : Vault} {h : SeedHandle}

/-! ### Seeds in questions and answers -/

/-- The seed that must be there for an operation to succeed. Default addresses are not
asked for: those that cannot be created are left out. -/
def Operation.asks? : Operation → Option SeedHandle
  | .derive h .. | .exportEntropy h _ | .exportPhrase h _ | .delete h | .createAddress h ..
  | .addressesOf h | .suggestNext h .. => some h
  | .sign derived .. => some derived.seed
  | _ => none

/-- The seeds that an answer names. -/
def Answer.names : Answer → List SeedHandle
  | .seed h => [h]
  | .seeds named => named.map (·.1)
  | .derived d => [d.seed]
  | .addresses listed => listed.map (·.2.seed)
  | .details found => found.toList.map (·.seed)
  | _ => []

theorem reading_eq_ok {α β : Type} {answer : α → β} {x : Except VaultError α} {b : β} :
    v.reading answer x = (.ok b, v') ↔ v' = v ∧ ∃ a, x = .ok a ∧ answer a = b := by
  rw [reading, Prod.mk.injEq, map_eq_ok, and_comm, eq_comm]

theorem writing_eq_ok {α β : Type} {answer : α → β} {x : Except VaultError (α × Vault)} {b : β} :
    v.writing answer x = (.ok b, v') ↔ ∃ a, x = .ok (a, v') ∧ answer a = b := by
  cases x with
  | error => simp [writing]
  | ok done =>
    obtain ⟨a, w⟩ := done
    rw [writing, Prod.mk.injEq, Except.ok.injEq]
    constructor
    · rintro ⟨rfl, rfl⟩
      exact ⟨a, rfl, rfl⟩
    · rintro ⟨a', heq, rfl⟩
      obtain ⟨rfl, rfl⟩ := Prod.mk.inj (Except.ok.inj heq)
      exact ⟨rfl, rfl⟩

/-- What asks for a seed fails where there is none. -/
theorem live_of_asks {op : Operation} {answer : Answer} (answered : v.run op = (.ok answer, v'))
    (asks : op.asks? = some h) : ∃ s, v.seeds.find? h = some s := by
  cases op with
  | derive =>
    obtain rfl := Option.some.inj asks
    obtain ⟨-, key, hkey, -⟩ := reading_eq_ok.1 answered
    obtain ⟨p, -, k, hk, -⟩ := derive_eq_ok.1 hkey
    obtain ⟨s, live, -⟩ := secretKey_eq_ok.1 hk
    exact ⟨s, live⟩
  | sign =>
    obtain rfl := Option.some.inj asks
    obtain ⟨-, signature, hsign, -⟩ := reading_eq_ok.1 answered
    obtain ⟨-, -, s, -, -, live, -⟩ := sign_eq_ok.1 hsign
    exact ⟨s, live⟩
  | exportEntropy =>
    obtain rfl := Option.some.inj asks
    obtain ⟨-, entropy, hexport, -⟩ := reading_eq_ok.1 answered
    obtain ⟨-, s, live, -⟩ := exportEntropy_eq_ok.1 hexport
    exact ⟨s, live⟩
  | exportPhrase =>
    obtain rfl := Option.some.inj asks
    obtain ⟨-, phrase, hexport, -⟩ := reading_eq_ok.1 answered
    obtain ⟨-, s, live, -⟩ := exportPhrase_eq_ok.1 hexport
    exact ⟨s, live⟩
  | delete =>
    obtain rfl := Option.some.inj asks
    obtain ⟨_, hdelete, -⟩ := writing_eq_ok.1 answered
    obtain ⟨w, hdelete, -⟩ := map_eq_ok.1 hdelete
    exact (delete_eq_ok.1 hdelete).1
  | createAddress =>
    obtain rfl := Option.some.inj asks
    obtain ⟨key, hcreate, -⟩ := writing_eq_ok.1 answered
    obtain ⟨-, s, -, -, live, -⟩ := createAddress_eq_ok.1 hcreate
    exact ⟨s, live⟩
  | addressesOf =>
    obtain rfl := Option.some.inj asks
    obtain ⟨-, addresses, hlist, -⟩ := reading_eq_ok.1 answered
    exact (addressesOf_eq_ok.1 hlist).1
  | suggestNext =>
    obtain rfl := Option.some.inj asks
    obtain ⟨-, path, hnext, -⟩ := reading_eq_ok.1 answered
    obtain ⟨addresses, hlist, -⟩ := bind_eq_ok.1 hnext
    exact (addressesOf_eq_ok.1 hlist).1
  | _ => cases asks

/-- A seed that was kept just now is there. -/
theorem live_of_importSeed {name : String} {entropy : Bytes}
    (done : v.importSeed name entropy = .ok (h, v')) : ∃ s, v'.seeds.find? h = some s := by
  obtain ⟨-, -, -, -, rfl, rfl⟩ := importSeed_eq_ok.1 done
  exact ⟨_, (Table.find?_insert ..).trans (if_pos rfl)⟩

/-- The seed of an entry is there. -/
theorem Sound.live_of_lookup (hv : v.Sound) {key : PublicKey} {d : AddressDetails}
    (listed : v.lookup key = some d) : ∃ s, v.seeds.find? d.seed = some s := by
  obtain ⟨s, live, -⟩ := hv.derives_lookup listed
  exact ⟨s, live⟩

/-- An answer names no seed but what is there. -/
theorem Sound.live_of_names (hv : v.Sound) {op : Operation} {answer : Answer}
    (answered : v.run op = (.ok answer, v')) (named : h ∈ answer.names) :
    ∃ s, v'.seeds.find? h = some s := by
  cases op with
  | importSeed =>
    obtain ⟨seed, himport, rfl⟩ := writing_eq_ok.1 answered
    obtain rfl := List.mem_singleton.1 named
    exact live_of_importSeed himport
  | importPhrase =>
    obtain ⟨seed, himport, rfl⟩ := writing_eq_ok.1 answered
    obtain ⟨entropy, -, himport⟩ := importPhrase_eq_ok.1 himport
    obtain rfl := List.mem_singleton.1 named
    exact live_of_importSeed himport
  | seedByName =>
    obtain ⟨rfl, seed, found, rfl⟩ := reading_eq_ok.1 answered
    obtain rfl := List.mem_singleton.1 named
    obtain ⟨s, live, -⟩ := hv.exists_of_seedByName found
    exact ⟨s, live⟩
  | seedNames =>
    obtain ⟨rfl, names, hnames, rfl⟩ := reading_eq_ok.1 answered
    obtain rfl := Except.ok.inj hnames
    obtain ⟨_, hname, rfl⟩ := List.mem_map.1 named
    obtain ⟨⟨seed, s⟩, hmem, rfl⟩ := List.mem_map.1 hname
    exact ⟨s, hv.seedsOrdered.find?_eq_some.2 hmem⟩
  | derive =>
    obtain ⟨rfl, key, hkey, rfl⟩ := reading_eq_ok.1 answered
    obtain ⟨p, -, k, hk, rfl⟩ := derive_eq_ok.1 hkey
    obtain rfl := List.mem_singleton.1 named
    obtain ⟨s, live, -⟩ := secretKey_eq_ok.1 hk
    exact ⟨s, live⟩
  | addressesOf =>
    obtain ⟨rfl, addresses, hlist, rfl⟩ := reading_eq_ok.1 answered
    obtain ⟨live, rfl⟩ := addressesOf_eq_ok.1 hlist
    obtain ⟨e, hmem, rfl⟩ := List.mem_map.1 named
    rw [of_decide_eq_true (List.mem_filter.1 hmem).2]
    exact live
  | lookup =>
    obtain ⟨rfl, found, hfound, rfl⟩ := reading_eq_ok.1 answered
    obtain rfl := Except.ok.inj hfound
    obtain ⟨d, hd, rfl⟩ := List.mem_map.1 named
    exact hv.live_of_lookup (Option.mem_toList.1 hd)
  | lookupOn =>
    obtain ⟨rfl, found, hfound, rfl⟩ := reading_eq_ok.1 answered
    obtain rfl := Except.ok.inj hfound
    obtain ⟨d, hd, rfl⟩ := List.mem_map.1 named
    exact hv.live_of_lookup (Option.filter_eq_some_iff.1 (Option.mem_toList.1 hd)).1
  | authenticate | sign | exportEntropy | exportPhrase | exportAddress | suggestNext =>
    obtain ⟨-, _, -, rfl⟩ := reading_eq_ok.1 answered
    cases named
  | delete | createAddress | removeAddress =>
    obtain ⟨_, -, rfl⟩ := writing_eq_ok.1 answered
    cases named
  | populateDefaults =>
    obtain ⟨keys, -, rfl⟩ := map_eq_ok.1 (Prod.mk.inj answered).1
    cases named

/-! ### Seeds that are gone -/

/-- The handle was given out, and its seed is not there. -/
structure Gone (v : Vault) (h : SeedHandle) : Prop where
  sound : v.Sound
  given : h.index < v.next
  missing : v.seeds.find? h = none

theorem Sound.gone_of_delete (hv : v.Sound) (deleted : v.delete h = .ok v') : v'.Gone h := by
  have hsound := (change_of_delete deleted).sound hv
  obtain ⟨⟨s, live⟩, rfl⟩ := delete_eq_ok.1 deleted
  exact ⟨hsound, hv.index_lt live, (Table.find?_erase ..).trans (if_pos rfl)⟩

/-- Under a handle that was given out no seed is kept again. -/
theorem Change.gone {e : Event} (change : v.Change e v') (gone : v.Gone h) : v'.Gone h := by
  refine ⟨change.sound gone.sound, UInt32.lt_of_lt_of_le gone.given change.next_le, ?_⟩
  refine Option.eq_none_iff_forall_ne_some.2 fun s live => ?_
  cases gone.missing.symm.trans (change.find?_of_find? gone.given live)

namespace Gone

theorem run (gone : v.Gone h) (op : Operation) : (v.run op).2.Gone h := by
  obtain ⟨events, changes, -⟩ := v.changes_run op
  exact changes.keep (P := fun v => v.Gone h) (fun _ _ _ change => change.gone) gone

theorem after (gone : v.Gone h) (ops : List Operation) : (v.after ops).Gone h := by
  induction ops generalizing v with
  | nil => exact gone
  | cons op ops ih => exact ih (gone.run op)

theorem not_asks (gone : v.Gone h) {op : Operation} {answer : Answer}
    (answered : v.run op = (.ok answer, v')) : op.asks? ≠ some h := by
  intro asks
  obtain ⟨s, live⟩ := live_of_asks answered asks
  cases gone.missing.symm.trans live

theorem not_mem_names (gone : v.Gone h) {op : Operation} {answer : Answer}
    (answered : v.run op = (.ok answer, v')) : h ∉ answer.names := by
  intro named
  have hgone := gone.run op
  rw [answered] at hgone
  obtain ⟨s, live⟩ := gone.sound.live_of_names answered named
  cases hgone.missing.symm.trans live

theorem seed_ne (gone : v.Gone h) {e : PublicKey × AddressDetails}
    (listed : e ∈ v.addresses.entries) : e.2.seed ≠ h := by
  rintro rfl
  obtain ⟨s, live, -⟩ := gone.sound.derives e.1 e.2 listed
  cases gone.missing.symm.trans live

/-- Nothing is created for it, and so nothing is written. -/
theorem createAll_eq (gone : v.Gone h) (created : List PublicKey) (paths : List (Entry × String)) :
    (v.createAll h created paths).1 = v ∧
      ∀ keys, (v.createAll h created paths).2 = .ok keys → keys = created.reverse := by
  induction paths with
  | nil => exact ⟨rfl, fun keys hkeys => (Except.ok.inj hkeys).symm⟩
  | cons first rest ih =>
    obtain ⟨e, path⟩ := first
    rw [createAll]
    split
    · next key v' done =>
      obtain ⟨-, s, -, -, live, -⟩ := createAddress_eq_ok.1 done
      cases gone.missing.symm.trans live
    · split
      · exact ⟨rfl, fun keys hkeys => by cases hkeys⟩
      · exact ih

end Gone

/-- When a seed is deleted its handle is done with, whatever the vault is asked from
then on: what asks for the seed fails, no default addresses are created for it, no
answer names it, and no entry is under it. The handles that were given out are counted,
so that their numbers last as long as the seeds that were to be kept are fewer. -/
theorem deletion_is_final (authenticator : Authenticator) (ops more : List Operation) (h : SeedHandle)
    (v : Vault) (deleted : (after { authenticator } ops).delete h = .ok v) :
    (∀ op answer v', (v.after more).run op = (.ok answer, v') →
      op.asks? ≠ some h ∧ h ∉ answer.names) ∧
      (∀ networks templates, ((v.after more).populateDefaults h networks templates).1 = v.after more ∧
        ∀ keys, ((v.after more).populateDefaults h networks templates).2 = .ok keys → keys = []) ∧
      (∀ e ∈ (v.after more).addresses.entries, e.2.seed ≠ h) ∧
      (v.after more).next.toNat ≤ (ops ++ more).countP Operation.isImport := by
  obtain ⟨events, changes, count⟩ := changes_after { authenticator } ops
  obtain ⟨others, changes', count'⟩ := v.changes_after more
  have gone := ((changes.sound (sound_empty authenticator)).gone_of_delete deleted).after more
  refine ⟨fun op answer v' answered => ⟨gone.not_asks answered, gone.not_mem_names answered⟩,
    fun networks templates => gone.createAll_eq [] _, fun e => gone.seed_ne, ?_⟩
  have hnext : v.next.toNat = (after { authenticator } ops).next.toNat :=
    (change_of_delete deleted).next_eq
  rw [changes'.next_eq, hnext, changes.next_eq_of_new, List.countP_append]
  exact Nat.add_le_add count count'

/-- A seed is deleted, and its entropy kept again under the same name. -/
theorem reimported_seed_is_another : ∃ v,
    (after { authenticator := ⟨fun _ => true⟩ } [.importSeed "a" (List.replicate 16 0)]).delete ⟨0⟩ =
        .ok v ∧
      (v.after [.importSeed "a" (List.replicate 16 0)]).seedByName "a" = .ok ⟨1⟩ ∧
      ∀ entropy,
        (v.after [.importSeed "a" (List.replicate 16 0)]).exportEntropy ⟨0⟩ [] ≠ .ok entropy := by
  have deleted : (after { authenticator := ⟨fun _ => true⟩ }
      [.importSeed "a" (List.replicate 16 0)]).delete ⟨0⟩ =
        .ok { authenticator := ⟨fun _ => true⟩, next := 1 } := by rfl
  refine ⟨_, deleted, by rfl, fun entropy hexport => ?_⟩
  have final := deletion_is_final _ _ [.importSeed "a" (List.replicate 16 0)] _ _ deleted
  exact (final.1 (.exportEntropy ⟨0⟩ []) (.entropy entropy) _
    (reading_eq_ok.2 ⟨rfl, entropy, hexport, rfl⟩)).1 rfl

end ColdSigner.Vault
