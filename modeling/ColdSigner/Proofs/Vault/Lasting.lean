import ColdSigner.Proofs.Vault.Soundness

/-! What lasts in a vault.

The seed of a handle is the one that was kept under it, for as long as it is there. And
the entry of a key has the seed and the path of its creation for as long as the key is
listed: of all that is written there, only the networks change. So the password of its
creation, which is written nowhere, gives the key to the last. -/
namespace ColdSigner

/-- The seed of an entry gives its key along the path with this password, if one is
asked for, or without. -/
structure AddressDetails.OpenedBy (d : AddressDetails) (s : Seed) (key : PublicKey)
    (w : Option String) : Prop where
  asked : w.isSome = d.hasPassword
  derived : ∃ p k, DerivationPath.parse d.path = .ok p ∧
    SecretKey.derive s.entropy (p.withPassword w) key.scheme = .ok k ∧ k.publicKey = key

namespace Vault

variable {v v' : Vault} {e : Event} {key : PublicKey} {w : Option String}

/-! ### Seeds -/

theorem Change.next_le (change : v.Change e v') : v.next ≤ v'.next := by
  rw [UInt32.le_iff_toNat_le, change.next_eq]
  exact Nat.le_add_right ..

/-- Under a handle that was given out no other seed is ever kept. -/
theorem Change.find?_of_find? (change : v.Change e v') {h : SeedHandle} {s : Seed}
    (given : h.index < v.next) (live : v'.seeds.find? h = some s) : v.seeds.find? h = some s := by
  cases change with
  | imported =>
    have hne : (⟨v.next⟩ : SeedHandle) ≠ h := fun heq => by
      rw [← heq] at given
      exact UInt32.lt_irrefl _ given
    rwa [Table.find?_insert, if_neg hne] at live
  | deleted =>
    rw [Table.find?_erase] at live
    split at live
    · cases live
    · exact live
  | listed => exact live
  | enabled _ enables => rcases enables with ⟨-, rfl⟩ | ⟨-, rfl⟩ <;> exact live
  | disabled _ disables => rcases disables with ⟨-, rfl⟩ | ⟨-, rfl⟩ <;> exact live

/-- A seed that is found by its name has it. -/
theorem Sound.exists_of_seedByName (hv : v.Sound) {name : String} {h : SeedHandle}
    (found : v.seedByName name = .ok h) : ∃ s, v.seeds.find? h = some s ∧ s.name = name := by
  unfold seedByName at found
  split at found
  · next e he =>
    obtain rfl := Except.ok.inj found
    obtain ⟨⟨h, s⟩, hmem, rfl⟩ := List.mem_map.1 (List.mem_of_find?_eq_some he)
    exact ⟨s, hv.seedsOrdered.find?_eq_some.2 hmem, by simpa using List.find?_some he⟩
  · cases found

/-- What a handle that was given out may find: this seed or none. -/
def Lasts (v : Vault) (h : SeedHandle) (seed : Seed) : Prop :=
  h.index < v.next ∧ ∀ s, v.seeds.find? h = some s → s = seed

theorem Sound.lasts (hv : v.Sound) {h : SeedHandle} {seed : Seed}
    (live : v.seeds.find? h = some seed) : v.Lasts h seed :=
  ⟨hv.index_lt live, fun _ hs => Option.some.inj (hs.symm.trans live)⟩

theorem Change.lasts (change : v.Change e v') {h : SeedHandle} {seed : Seed}
    (lasts : v.Lasts h seed) : v'.Lasts h seed :=
  ⟨UInt32.lt_of_lt_of_le lasts.1 change.next_le,
    fun s live => lasts.2 s (change.find?_of_find? lasts.1 live)⟩

theorem Changes.lasts {events : List Event} (changes : v.Changes events v') {h : SeedHandle}
    {seed : Seed} (lasts : v.Lasts h seed) : v'.Lasts h seed :=
  changes.keep (P := fun v => v.Lasts h seed) (fun _ _ _ change => change.lasts) lasts

/-! ### Entries -/

theorem lookup_setAddress (v : Vault) (key : PublicKey) (d : AddressDetails) (key' : PublicKey) :
    (v.setAddress key d).lookup key' = if key = key' then some d else v.lookup key' :=
  Table.find?_insert ..

/-- Other networks are written into an entry that is there, and into no other. -/
theorem of_setAddress {key' : PublicKey} {d d' : AddressDetails} {networks : List NetworkId}
    (there : v.lookup key' = some d)
    (listed : (v.setAddress key' { d with networks }).lookup key = some d') :
    ∃ d, v.lookup key = some d ∧ d' = { d with networks := d'.networks } := by
  rw [lookup_setAddress] at listed
  split at listed
  · next heq =>
    subst heq
    obtain rfl := Option.some.inj listed
    exact ⟨d, there, rfl⟩
  · exact ⟨d', listed, rfl⟩

/-- An entry was there before a change, but for its networks, or it was created by it. -/
theorem Change.listed_cases (change : v.Change e v') (hv : v.Sound) {d' : AddressDetails}
    (listed : v'.lookup key = some d') :
    (∃ d, v.lookup key = some d ∧ d' = { d with networks := d'.networks }) ∨
      v.lookup key = none ∧ ∃ h path p network specs, DerivationPath.parse? path = some p ∧
        v.createAddress h path network specs = .ok (key, v') := by
  cases change with
  | imported => exact .inl ⟨d', listed, rfl⟩
  | deleted =>
    have hmem := (hv.addressesOrdered.filter _).find?_eq_some.1 listed
    exact .inl ⟨d', hv.addressesOrdered.find?_eq_some.2 (List.mem_filter.1 hmem).1, rfl⟩
  | @listed h s path p scheme k network parsed live derived new =>
    rw [lookup_setAddress] at listed
    split at listed
    · next heq =>
      subst heq
      exact .inr ⟨new, h, path, p, network, ⟨"", 0, 0, "", scheme⟩, parsed,
        createAddress_eq_ok.2 ⟨p, s, k, parsed, live, derived, rfl, .inl ⟨new, rfl⟩⟩⟩
    · exact .inl ⟨d', listed, rfl⟩
  | enabled there enables =>
    rcases enables with ⟨-, rfl⟩ | ⟨-, rfl⟩
    · exact .inl ⟨d', listed, rfl⟩
    · exact .inl (of_setAddress there listed)
  | disabled there disables =>
    rcases disables with ⟨-, rfl⟩ | ⟨-, rfl⟩
    · rw [lookup, Table.find?_erase] at listed
      split at listed
      · cases listed
      · exact .inl ⟨d', listed, rfl⟩
    · exact .inl (of_setAddress there listed)

/-- What is listed stays listed while addresses are created. -/
theorem exists_lookup_of_createAddress {h : SeedHandle} {path : String} {network : NetworkId}
    {specs : NetworkSpecs} {key' : PublicKey} {d : AddressDetails}
    (done : v.createAddress h path network specs = .ok (key', v')) (listed : v.lookup key = some d) :
    ∃ networks, v'.lookup key = some { d with networks } := by
  obtain ⟨p, s, k, -, -, -, rfl, ⟨new, rfl⟩ | ⟨d', there, -, -, ⟨-, rfl⟩ | ⟨-, rfl⟩⟩⟩ :=
    createAddress_eq_ok.1 done
  · have hne : k.publicKey ≠ key := fun heq => by
      rw [heq, listed] at new
      cases new
    exact ⟨d.networks, (lookup_setAddress ..).trans ((if_neg hne).trans listed)⟩
  · exact ⟨d.networks, listed⟩
  · rw [lookup_setAddress]
    split
    · next heq =>
      subst heq
      obtain rfl := Option.some.inj (listed.symm.trans there)
      exact ⟨_, rfl⟩
    · exact ⟨d.networks, listed⟩

/-! ### The path of a key -/

/-- The entry of a key says what is said of it when it is derived from a seed along a path. This
is more than that the path leads to the key: so does the path with an empty password in place of
none, but then the entry asks for it. -/
def Lists (v : Vault) (h : SeedHandle) (path : String) (key : PublicKey) : Prop :=
  ∃ d, v.lookup key = some d ∧ v.derive h path key.scheme = .ok (d.derivedKey key)

/-- So it is of a new address. -/
theorem lists_of_createAddress {h : SeedHandle} {path : String} {network : NetworkId}
    {specs : NetworkSpecs} (new : v.lookup key = none)
    (done : v.createAddress h path network specs = .ok (key, v')) : v'.Lists h path key := by
  obtain ⟨p, s, k, parsed, live, derived, rfl, ⟨-, rfl⟩ | ⟨d, listed, -⟩⟩ := createAddress_eq_ok.1 done
  · refine ⟨_, (lookup_setAddress ..).trans (if_pos rfl), derive_eq_ok.2 ⟨p, parsed, k, ?_, rfl⟩⟩
    rw [SecretKey.scheme_of_derive derived]
    exact secretKey_eq_ok.2 ⟨s, live, derived⟩
  · rw [new] at listed
    cases listed

/-- And so it stays, whatever the vault is asked, until the key is listed no longer. -/
theorem Change.lists (change : v.Change e v') (hv : v.Sound) {h : SeedHandle} {path : String}
    (lists : v.Lists h path key) (still : (v'.lookup key).isSome = true) : v'.Lists h path key := by
  obtain ⟨d, listed, derives⟩ := lists
  obtain ⟨p, parsed, k, derived, hkey⟩ := derive_eq_ok.1 derives
  obtain ⟨s, live, derived⟩ := secretKey_eq_ok.1 derived
  obtain ⟨d', listed'⟩ := Option.isSome_iff_exists.1 still
  obtain ⟨d₀, listed₀, hd'⟩ | ⟨new, -⟩ := change.listed_cases hv listed'
  · obtain rfl := Option.some.inj (listed.symm.trans listed₀)
    have hsame : d'.derivedKey key = d.derivedKey key := by rw [hd']; rfl
    obtain ⟨s', live', -⟩ := (change.sound hv).derives_lookup listed'
    have hseed : d'.seed = h := congrArg DerivedKey.seed (hsame.trans hkey)
    rw [hseed] at live'
    obtain rfl := Option.some.inj (live.symm.trans (change.find?_of_find? (hv.index_lt live) live'))
    refine ⟨d', listed', derive_eq_ok.2 ⟨p, parsed, k, ?_, hsame.trans hkey⟩⟩
    exact secretKey_eq_ok.2 ⟨s, live', derived⟩
  · rw [new] at listed
    cases listed

/-- With the password of its path a listed key signs, as the path and its seed tell without the
vault. -/
theorem Lists.sign_eq_ok {h : SeedHandle} {path : String} {p : DerivationPath} {s : Seed}
    {d : AddressDetails} {proof message : Bytes} {signature : Signature} (lists : v.Lists h path key)
    (live : v.seeds.find? h = some s) (parsed : DerivationPath.parse? path = some p)
    (listed : v.lookup key = some d) (verified : v.authenticator.verifies proof = true) :
    v.sign (d.derivedKey key) p.password proof message = .ok signature ↔
      ∃ k, SecretKey.derive s.entropy p key.scheme = .ok k ∧ k.publicKey = key ∧
        signature = k.sign message := by
  obtain ⟨d', listed', derives⟩ := lists
  obtain rfl := Option.some.inj (listed.symm.trans listed')
  obtain ⟨p', parsed', k, -, hkey⟩ := derive_eq_ok.1 derives
  obtain rfl := Option.some.inj (parsed.symm.trans parsed')
  obtain ⟨hseed, hpath, hpassword, -⟩ := DerivedKey.mk.inj hkey
  have hread : DerivationPath.parse d.path = .ok p.withoutPassword := by
    rw [hpath, DerivationPath.parse, DerivationPath.parse?_path parsed]
  have hlive : v.seeds.find? d.seed = some s := hseed ▸ live
  rw [Vault.sign_eq_ok]
  constructor
  · rintro ⟨-, -, s', q, k, live', hq, derived, hk, rfl⟩
    obtain rfl : s = s' := Option.some.inj (hlive.symm.trans live')
    obtain rfl : p.withoutPassword = q := Except.ok.inj (hread.symm.trans hq)
    rw [DerivationPath.withPassword_withoutPassword] at derived
    exact ⟨k, derived, hk, rfl⟩
  · rintro ⟨k, derived, hk, rfl⟩
    refine ⟨verified, ?_, s, p.withoutPassword, k, hlive, hread, ?_, hk, rfl⟩
    · rintro ⟨hasked, hnone⟩
      rw [show (d.derivedKey key).hasPassword = p.password.isSome from hpassword, hnone] at hasked
      cases hasked
    · rw [DerivationPath.withPassword_withoutPassword]
      exact derived

/-! ### The password of a key -/

/-- The key was first listed when an address was created along a path with this
password, or without one, and is listed since. -/
inductive ListedWith (key : PublicKey) : Option String → Vault → Prop where
  | created {v v' : Vault} {h : SeedHandle} {path : String} {p : DerivationPath}
      {network : NetworkId} {specs : NetworkSpecs} (sound : v.Sound) (new : v.lookup key = none)
      (parsed : DerivationPath.parse? path = some p)
      (done : v.createAddress h path network specs = .ok (key, v')) : ListedWith key p.password v'
  | kept {w : Option String} {v v' : Vault} {e : Event} (before : ListedWith key w v)
      (change : v.Change e v') (still : (v'.lookup key).isSome = true) : ListedWith key w v'

namespace ListedWith

/-- The password of its creation gives the key as long as it is listed. -/
theorem opened (h : v.ListedWith key w) : v.Sound ∧
    ∃ d s, v.lookup key = some d ∧ v.seeds.find? d.seed = some s ∧ d.OpenedBy s key w := by
  induction h with
  | @created _ _ _ _ p _ _ sound new parsed done =>
    refine ⟨(change_of_createAddress done).sound sound, ?_⟩
    obtain ⟨q, s, k, hq, live, derived, rfl, ⟨-, rfl⟩ | ⟨d, listed, -⟩⟩ := createAddress_eq_ok.1 done
    · obtain rfl := Option.some.inj (parsed.symm.trans hq)
      refine ⟨_, s, (lookup_setAddress ..).trans (if_pos rfl), live, rfl, p.withoutPassword, k, ?_, ?_,
        rfl⟩
      · rw [DerivationPath.parse, DerivationPath.parse?_path parsed]
      · rw [DerivationPath.withPassword_withoutPassword, SecretKey.scheme_of_derive derived]
        exact derived
    · rw [new] at listed
      cases listed
  | kept before change still ih =>
    obtain ⟨sound, d, s, listed, live, opened⟩ := ih
    have hsound := change.sound sound
    obtain ⟨d', listed'⟩ := Option.isSome_iff_exists.1 still
    obtain ⟨s', live', -⟩ := hsound.derives_lookup listed'
    obtain ⟨d₀, listed₀, hd'⟩ | ⟨new, -⟩ := change.listed_cases sound listed'
    · obtain rfl := Option.some.inj (listed.symm.trans listed₀)
      rw [hd'] at live'
      -- the handle was given out, so that the seed under it is the one of before
      have hsame := change.find?_of_find? (sound.index_lt live) live'
      obtain rfl := Option.some.inj (live.symm.trans hsame)
      refine ⟨hsound, d', s, listed', ?_, ?_⟩
      · rw [hd']
        exact live'
      · rw [hd']
        exact ⟨opened.asked, opened.derived⟩
    · rw [new] at listed
      cases listed

/-- With the password of its creation a listed key signs. -/
theorem sign (h : v.ListedWith key w) {d : AddressDetails} (listed : v.lookup key = some d)
    {proof : Bytes} (verified : v.authenticator.verifies proof = true) (message : Bytes) :
    ∃ signature, v.sign (d.derivedKey key) w proof message = .ok signature := by
  obtain ⟨-, d', s, listed', live, asked, p, k, parsed, derived, hkey⟩ := h.opened
  obtain rfl := Option.some.inj (listed.symm.trans listed')
  refine ⟨k.sign message, sign_eq_ok.2 ⟨verified, ?_, s, p, k, live, parsed, derived, hkey, rfl⟩⟩
  rintro ⟨hasked, rfl⟩
  cases asked.trans hasked

theorem isSome_eq (h : v.ListedWith key w) {d : AddressDetails} (listed : v.lookup key = some d) :
    w.isSome = d.hasPassword := by
  obtain ⟨-, d', s, listed', -, opened⟩ := h.opened
  obtain rfl := Option.some.inj (listed.symm.trans listed')
  exact opened.asked

end ListedWith

/-- Every listed key was listed with some password, or without one. -/
structure Remembered (v : Vault) : Prop where
  sound : v.Sound
  listedWith : ∀ key, (v.lookup key).isSome = true → ∃ w, v.ListedWith key w

theorem remembered_empty (authenticator : Authenticator) : Remembered { authenticator } :=
  ⟨sound_empty authenticator, nofun⟩

theorem Change.remembered (change : v.Change e v') (hv : v.Remembered) : v'.Remembered := by
  refine ⟨change.sound hv.sound, fun key still => ?_⟩
  obtain ⟨d', listed'⟩ := Option.isSome_iff_exists.1 still
  obtain ⟨d, listed, -⟩ | ⟨new, h, path, p, network, specs, parsed, done⟩ :=
    change.listed_cases hv.sound listed'
  · obtain ⟨w, before⟩ := hv.listedWith key (Option.isSome_iff_exists.2 ⟨d, listed⟩)
    exact ⟨w, .kept before change still⟩
  · exact ⟨p.password, .created hv.sound new parsed done⟩

end Vault

end ColdSigner
