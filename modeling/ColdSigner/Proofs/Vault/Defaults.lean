import ColdSigner.Proofs.Vault.Lasting

/-! Default addresses, and what is left of them after a failure.

The addresses of a seed are created one by one, and some may be there already when one
fails. All that was written by then is of that seed; the entries of others are as they
were. So a new seed that is deleted again takes everything with it but its handle. -/
namespace ColdSigner.Vault

variable {v v' : Vault} {h : SeedHandle}

/-- The vault with one more seed. -/
def withSeed (v : Vault) (s : Seed) : Vault :=
  { v with next := v.next + 1, seeds := v.seeds.insert ⟨v.next⟩ s }

/-- The entries of all other seeds. -/
def others (v : Vault) (h : SeedHandle) : Table PublicKey AddressDetails :=
  v.addresses.filter fun _ d => d.seed ≠ h

/-! ### What is created -/

/-- An address is written into the book of its seed, and nowhere else. -/
theorem exists_addresses_of_createAddress {path : String} {network : NetworkId}
    {specs : NetworkSpecs} {key : PublicKey}
    (done : v.createAddress h path network specs = .ok (key, v')) :
    ∃ addresses, v' = { v with addresses } ∧ v'.others h = v.others h := by
  obtain ⟨p, s, k, -, -, -, rfl, ⟨new, rfl⟩ | ⟨d, listed, rfl, -, ⟨-, rfl⟩ | ⟨-, rfl⟩⟩⟩ :=
    createAddress_eq_ok.1 done
  · refine ⟨_, rfl, Table.filter_insert _ (by simp) fun old hold => ?_⟩
    rw [lookup, hold] at new
    cases new
  · exact ⟨_, rfl, rfl⟩
  · refine ⟨_, rfl, Table.filter_insert _ (by simp) fun old hold => ?_⟩
    obtain rfl := Option.some.inj (hold.symm.trans listed)
    simp

/-- So are all addresses that are created in turn, whether the last one fails or not. -/
theorem exists_addresses_of_createAll (v : Vault) (h : SeedHandle) (created : List PublicKey)
    (paths : List (Entry × String)) : ∃ addresses,
      (v.createAll h created paths).1 = { v with addresses } ∧
        (v.createAll h created paths).1.others h = v.others h := by
  induction paths generalizing v created with
  | nil => exact ⟨_, rfl, rfl⟩
  | cons first rest ih =>
    obtain ⟨e, path⟩ := first
    rw [createAll]
    split
    · next key v' done =>
      obtain ⟨addresses, rfl, hothers⟩ := exists_addresses_of_createAddress done
      obtain ⟨more, hmore, hrest⟩ := ih { v with addresses } (key :: created)
      exact ⟨more, hmore, hrest.trans hothers⟩
    · split
      · exact ⟨_, rfl, rfl⟩
      · exact ih v created

/-- An address below the root is created or left out, and the others are seen to after it. -/
theorem exists_createAll_below {h : SeedHandle} {created : List PublicKey} {e : Entry}
    {path : String} (below : path.isEmpty = false) (rest : List (Entry × String)) :
    ∃ addresses more, v.createAll h created ((e, path) :: rest) =
        Vault.createAll { v with addresses } h more rest ∧
      ∀ key d, v.lookup key = some d →
        ∃ networks, Vault.lookup { v with addresses } key = some { d with networks } := by
  rw [createAll]
  split
  · next key' v' done =>
    obtain ⟨addresses, rfl, -⟩ := exists_addresses_of_createAddress done
    exact ⟨addresses, _, rfl, fun key d listed => exists_lookup_of_createAddress done listed⟩
  · rw [if_neg (Bool.eq_false_iff.1 below)]
    exact ⟨v.addresses, created, rfl, fun key d listed => ⟨d.networks, listed⟩⟩

/-- Only a root address makes them all fail, with its own error; by then the entries of others
are as they were. -/
theorem exists_root_of_createAll {created : List PublicKey} {paths : List (Entry × String)}
    {f : VaultError} (failed : (v.createAll h created paths).2 = .error f) :
    ∃ e addresses, (e, "") ∈ paths ∧ others { v with addresses } h = v.others h ∧
      { v with addresses }.createAddress h "" e.network e.specs = .error f := by
  induction paths generalizing v created with
  | nil => cases failed
  | cons first rest ih =>
    obtain ⟨e, path⟩ := first
    rw [createAll] at failed
    split at failed
    · next key v' done =>
      obtain ⟨addresses, rfl, hothers⟩ := exists_addresses_of_createAddress done
      obtain ⟨e', addresses', hmem, hrest, hfailed⟩ := ih failed
      exact ⟨e', addresses', List.mem_cons_of_mem _ hmem, hrest.trans hothers, hfailed⟩
    · next f' hfailed =>
      split at failed
      · next hroot =>
        obtain rfl := Except.error.inj failed
        obtain rfl := String.isEmpty_iff.1 hroot
        exact ⟨e, v.addresses, List.mem_cons_self .., rfl, hfailed⟩
      · obtain ⟨e', addresses', hmem, hrest, hfailed'⟩ := ih failed
        exact ⟨e', addresses', List.mem_cons_of_mem _ hmem, hrest, hfailed'⟩

/-- The addresses of all networks are created in turn, those of one seed. -/
theorem exists_addresses_of_populateDefaults (v : Vault) (h : SeedHandle) (networks : List Entry)
    (templates : List String) : ∃ addresses,
      (v.populateDefaults h networks templates).1 = { v with addresses } ∧
        (v.populateDefaults h networks templates).1.others h = v.others h :=
  exists_addresses_of_createAll ..

theorem exists_root_of_populateDefaults {networks : List Entry} {templates : List String}
    {f : VaultError} (failed : (v.populateDefaults h networks templates).2 = .error f) :
    ∃ e addresses, e ∈ networks ∧ "" ∈ defaultPaths e.specs templates ∧
      others { v with addresses } h = v.others h ∧
        { v with addresses }.createAddress h "" e.network e.specs = .error f := by
  obtain ⟨e, addresses, hmem, hothers, hroot⟩ := exists_root_of_createAll failed
  obtain ⟨e', known, hmem⟩ := List.mem_flatMap.1 hmem
  obtain ⟨path, asked, heq⟩ := List.mem_map.1 hmem
  obtain ⟨rfl, rfl⟩ := Prod.mk.inj heq
  exact ⟨e', addresses, known, asked, hothers, hroot⟩

/-! ### What fails -/

/-- An address is not created for its path, for want of a key, or because the key is
listed for another seed or path. -/
theorem error_of_createAddress {path : String} {network : NetworkId} {specs : NetworkSpecs}
    {f : VaultError} (failed : v.createAddress h path network specs = .error f) :
    parsePath path = .error f ∨
      (∃ p, parsePath path = .ok p ∧ v.secretKey h p specs.scheme = .error f) ∨
        ∃ name, f = .keyCollision name := by
  simp only [createAddress, bind_eq_error] at failed
  rcases failed with unparsed | ⟨p, parsed, underived | ⟨k, derived, unknown | ⟨s, live, failed⟩⟩⟩
  · exact .inl unparsed
  · exact .inr (.inl ⟨p, parsed, underived⟩)
  · obtain ⟨s, live, -⟩ := secretKey_eq_ok.1 derived
    cases (seed_eq_ok.2 live).symm.trans unknown
  · refine .inr (.inr ?_)
    split at failed
    · cases failed
    · next d listed =>
      split at failed
      · exact ⟨_, (Except.error.inj failed).symm⟩
      · split at failed <;> cases failed

/-- A root address of a seed that is there fails for its key: it is none, or it is
listed for another seed or path. -/
theorem error_of_createAddress_root {s : Seed} {network : NetworkId} {specs : NetworkSpecs}
    {f : VaultError} (live : v.seeds.find? h = some s)
    (length : s.entropy.length ∈ SecretKey.entropyLengths)
    (failed : v.createAddress h "" network specs = .error f) :
    f = .key .invalidKey ∨ ∃ name, f = .keyCollision name := by
  have parsed := parsePath_eq_ok.2 parse?_root_path
  have hsecret : v.secretKey h ⟨[], none⟩ specs.scheme =
      (SecretKey.derive s.entropy ⟨[], none⟩ specs.scheme).mapError .key := by
    rw [secretKey, seed_eq_ok.2 live]
    rfl
  rcases error_of_createAddress failed with unparsed | ⟨p, parsed', underived⟩ | collision
  · cases parsed.symm.trans unparsed
  · obtain rfl := Except.ok.inj (parsed.symm.trans parsed')
    rw [hsecret] at underived
    rcases SecretKey.derive_root_or_invalidKey length specs.scheme with ⟨k, hk⟩ | hk
    · rw [hk] at underived
      cases underived
    · rw [hk] at underived
      exact .inl (Except.error.inj underived).symm
  · exact .inr collision

/-- A key is not listed again for another seed or path. -/
theorem createAddress_of_taken {path : String} {p : DerivationPath} {s : Seed} {k : SecretKey}
    {network : NetworkId} {specs : NetworkSpecs} {d : AddressDetails}
    (parsed : DerivationPath.parse? path = some p) (live : v.seeds.find? h = some s)
    (derived : SecretKey.derive s.entropy p specs.scheme = .ok k)
    (listed : v.lookup k.publicKey = some d) (other : d.seed ≠ h ∨ d.path ≠ p.path) :
    v.createAddress h path network specs = .error (.keyCollision d.seedName) := by
  simp only [createAddress, bind_eq_error]
  refine .inr ⟨p, parsePath_eq_ok.2 parsed, .inr ⟨k, secretKey_eq_ok.2 ⟨s, live, derived⟩,
    .inr ⟨s, seed_eq_ok.2 live, ?_⟩⟩⟩
  rw [listed]
  exact if_pos other

/-! ### What is taken back -/

/-- No entry is under a handle that was not given out. -/
theorem Sound.others_next (hv : v.Sound) : v.others ⟨v.next⟩ = v.addresses := by
  refine Table.filter_eq_self fun e he => decide_eq_true fun heq => ?_
  obtain ⟨s, live, -⟩ := hv.derives e.1 e.2 he
  have hlt := hv.index_lt live
  rw [heq] at hlt
  exact UInt32.lt_irrefl _ hlt

theorem Sound.entries_withSeed (hv : v.Sound) (s : Seed) :
    (v.withSeed s).seeds.entries = v.seeds.entries ++ [(⟨v.next⟩, s)] :=
  Table.insertEntry_of_forall_gt _ hv.numbered

/-- A new seed that is deleted again, after some addresses of it were created, leaves no
trace but its handle. -/
theorem Sound.delete_withSeed (hv : v.Sound) {s : Seed} {addresses : Table PublicKey AddressDetails}
    (kept : addresses.filter (fun _ d => d.seed ≠ ⟨v.next⟩) = v.addresses) :
    Vault.delete { v.withSeed s with addresses } ⟨v.next⟩ = .ok { v with next := v.next + 1 } := by
  refine delete_eq_ok.2 ⟨⟨s, (Table.find?_insert ..).trans (if_pos rfl)⟩, ?_⟩
  have hseeds : (v.withSeed s).seeds.erase ⟨v.next⟩ = v.seeds := by
    rw [withSeed, Table.erase_insert]
    refine Table.erase_eq_self fun e he heq => ?_
    have hlt := hv.numbered e he
    rw [heq] at hlt
    exact UInt32.lt_irrefl _ hlt
  dsimp only
  rw [hseeds, kept]
  rfl

end ColdSigner.Vault
