import ColdSigner.Proofs.Key.Derivation
import ColdSigner.Proofs.Key.PathForm
import ColdSigner.Proofs.Review.Framing
import ColdSigner.Proofs.Vault.Changes

/-! The address book of a vault.

It lists keys without their secrets, so that all depends on what it says of each: its
seed is there, and derives it again along its path. `Sound` is this, with what makes
it last: names and handles tell seeds apart, and a handle that is given out is none
that was seen. Every change keeps it. -/
namespace ColdSigner

/-! ### The order of keys -/

instance : Std.Asymm (α := SeedHandle) (· < ·) := ⟨fun _ _ h => UInt32.lt_asymm h⟩

instance : Trans (α := SeedHandle) (· < ·) (· < ·) (· < ·) := ⟨fun h h' => UInt32.lt_trans h h'⟩

instance : Std.Trichotomous (α := SeedHandle) (· < ·) :=
  ⟨fun _ _ h h' => congrArg SeedHandle.mk (UInt32.le_antisymm (UInt32.not_lt.1 h') (UInt32.not_lt.1 h))⟩

instance : Std.Asymm (α := PublicKey) (· < ·) where
  asymm _ _ h h' := by
    rcases h with h | ⟨hs, h⟩ <;> rcases h' with h' | ⟨hs', h'⟩
    · exact UInt8.lt_asymm h h'
    · exact UInt8.lt_irrefl _ (hs' ▸ h)
    · exact UInt8.lt_irrefl _ (hs ▸ h')
    · exact List.lt_asymm h h'

instance : Trans (α := PublicKey) (· < ·) (· < ·) (· < ·) where
  trans h h' := by
    rcases h with h | ⟨hs, h⟩ <;> rcases h' with h' | ⟨hs', h'⟩
    · exact .inl (UInt8.lt_trans h h')
    · exact .inl (hs' ▸ h)
    · exact .inl (hs ▸ h')
    · exact .inr ⟨hs.trans hs', List.lt_trans h h'⟩

instance : Std.Trichotomous (α := PublicKey) (· < ·) where
  trichotomous a b h h' := by
    obtain ⟨hbyte, hbytes⟩ := not_or.1 h
    obtain ⟨hbyte', hbytes'⟩ := not_or.1 h'
    have hscheme : a.scheme = b.scheme := by
      have hsame : a.scheme.toByte = b.scheme.toByte :=
        UInt8.le_antisymm (UInt8.not_lt.1 hbyte') (UInt8.not_lt.1 hbyte)
      have hread := congrArg Scheme.ofByte? hsame
      rw [Scheme.ofByte?_toByte, Scheme.ofByte?_toByte] at hread
      exact Option.some.inj hread
    refine PublicKey.ext hscheme (List.le_antisymm (fun hlt => ?_) fun hlt => ?_)
    · exact hbytes' ⟨hscheme.symm, hlt⟩
    · exact hbytes ⟨hscheme, hlt⟩

/-! ### What holds of every vault -/

theorem Vault.next_lt {v : Vault} (room : v.next.toNat + 1 < UInt32.size) : v.next < v.next + 1 :=
  UInt32.lt_iff_toNat_lt.2 (toNat_next_add_one room ▸ Nat.lt_succ_self _)

/-- The seed gives the key again, as its details say. -/
structure AddressDetails.Derives (d : AddressDetails) (s : Seed) (key : PublicKey) : Prop where
  named : d.seedName = s.name
  enabled : d.networks ≠ []
  distinct : d.networks.Nodup
  derived : ∃ p password k, DerivationPath.parse d.path = .ok p ∧ p.password = none ∧
    p.path = d.path ∧ password.isSome = d.hasPassword ∧
      SecretKey.derive s.entropy (p.withPassword password) key.scheme = .ok k ∧ k.publicKey = key

namespace AddressDetails

/-- The key of a path is derived again along the path without its password. -/
theorem derives_of_derive {h : SeedHandle} {s : Seed} {path : String} {p : DerivationPath}
    {scheme : Scheme} {k : SecretKey} {network : NetworkId}
    (parsed : DerivationPath.parse? path = some p)
    (derived : SecretKey.derive s.entropy p scheme = .ok k) :
    Derives ⟨h, s.name, p.path, p.hasPassword, [network]⟩ s k.publicKey where
  named := rfl
  enabled := List.cons_ne_nil _ _
  distinct := List.pairwise_singleton ..
  derived := by
    refine ⟨p.withoutPassword, p.password, k, ?_, rfl, rfl, rfl, ?_, rfl⟩
    · rw [DerivationPath.parse, DerivationPath.parse?_path parsed]
    · rw [p.withPassword_withoutPassword, SecretKey.scheme_of_derive derived]
      exact derived

/-- The networks have no part in it. -/
theorem Derives.withNetworks {d : AddressDetails} {s : Seed} {key : PublicKey}
    {networks : List NetworkId} (h : d.Derives s key) (enabled : networks ≠ [])
    (distinct : networks.Nodup) : Derives { d with networks } s key :=
  ⟨h.named, enabled, distinct, h.derived⟩

end AddressDetails

namespace Vault

/-- What was kept can be told apart and used. -/
structure Sound (v : Vault) : Prop where
  seedsOrdered : v.seeds.Ordered
  addressesOrdered : v.addresses.Ordered
  numbered : ∀ e ∈ v.seeds.entries, e.1 < ⟨v.next⟩
  named : ∀ s ∈ v.seeds.values, isBlankName s.name = false
  entropy : ∀ s ∈ v.seeds.values, s.entropy.length ∈ SecretKey.entropyLengths
  distinct : (v.seeds.values.map (·.name)).Nodup
  derives : ∀ key d, (key, d) ∈ v.addresses.entries →
    ∃ s, v.seeds.find? d.seed = some s ∧ d.Derives s key

theorem sound_empty (authenticator : Authenticator) : Sound { authenticator } where
  seedsOrdered := Table.ordered_empty
  addressesOrdered := Table.ordered_empty
  numbered := nofun
  named := nofun
  entropy := nofun
  distinct := .nil
  derives := nofun

namespace Sound

variable {v : Vault}

theorem derives_lookup (hv : v.Sound) {key : PublicKey} {d : AddressDetails}
    (listed : v.lookup key = some d) : ∃ s, v.seeds.find? d.seed = some s ∧ d.Derives s key :=
  hv.derives key d (hv.addressesOrdered.find?_eq_some.1 listed)

theorem index_lt (hv : v.Sound) {h : SeedHandle} {s : Seed} (live : v.seeds.find? h = some s) :
    h.index < v.next :=
  hv.numbered _ (hv.seedsOrdered.find?_eq_some.1 live)

theorem importSeed (hv : v.Sound) {name : String} {entropy : Bytes}
    (named : isBlankName name = false) (length : entropy.length ∈ SecretKey.entropyLengths)
    (fresh : ∀ s ∈ v.seeds.values, s.name ≠ name) (room : v.next.toNat + 1 < UInt32.size) :
    Sound { v with next := v.next + 1, seeds := v.seeds.insert ⟨v.next⟩ ⟨name, entropy⟩ } := by
  have hentries : (v.seeds.insert ⟨v.next⟩ ⟨name, entropy⟩).entries =
      v.seeds.entries ++ [(⟨v.next⟩, ⟨name, entropy⟩)] :=
    Table.insertEntry_of_forall_gt _ hv.numbered
  have hvalues : (v.seeds.insert ⟨v.next⟩ ⟨name, entropy⟩).values =
      v.seeds.values ++ [⟨name, entropy⟩] := by
    simp [Table.values, hentries]
  constructor
  case seedsOrdered => exact hv.seedsOrdered.insert ..
  case addressesOrdered => exact hv.addressesOrdered
  case numbered =>
    rw [hentries]
    intro e he
    rcases List.mem_append.1 he with he | he
    · exact UInt32.lt_trans (hv.numbered e he) (next_lt room)
    · obtain rfl := List.mem_singleton.1 he
      exact next_lt room
  case named =>
    rw [hvalues]
    exact List.forall_mem_append.2 ⟨hv.named, List.forall_mem_singleton.2 named⟩
  case entropy =>
    rw [hvalues]
    exact List.forall_mem_append.2 ⟨hv.entropy, List.forall_mem_singleton.2 length⟩
  case distinct =>
    rw [hvalues, List.map_append]
    refine List.nodup_append.2 ⟨hv.distinct, List.pairwise_singleton .., ?_⟩
    intro taken htaken other hother
    obtain ⟨s, hs, rfl⟩ := List.mem_map.1 htaken
    obtain rfl := List.mem_singleton.1 hother
    exact fresh s hs
  case derives =>
    intro key d hmem
    obtain ⟨s, live, hderives⟩ := hv.derives key d hmem
    refine ⟨s, ?_, hderives⟩
    have hne : ⟨v.next⟩ ≠ d.seed := fun heq => by
      have hlt := hv.index_lt live
      rw [← heq] at hlt
      exact UInt32.lt_irrefl _ hlt
    rw [Table.find?_insert, if_neg hne]
    exact live

/-- A seed goes together with its addresses. -/
theorem delete (hv : v.Sound) (h : SeedHandle) :
    Sound { v with
      seeds := v.seeds.erase h
      addresses := v.addresses.filter fun _ d => d.seed ≠ h } := by
  have hentries : (v.seeds.erase h).entries.Sublist v.seeds.entries := List.filter_sublist
  have hvalues : (v.seeds.erase h).values.Sublist v.seeds.values := hentries.map _
  constructor
  case seedsOrdered => exact hv.seedsOrdered.erase h
  case addressesOrdered => exact hv.addressesOrdered.filter _
  case numbered => exact fun e he => hv.numbered e (hentries.subset he)
  case named => exact fun s hs => hv.named s (hvalues.subset hs)
  case entropy => exact fun s hs => hv.entropy s (hvalues.subset hs)
  case distinct => exact hv.distinct.sublist (hvalues.map _)
  case derives =>
    intro key d hmem
    obtain ⟨hmem, hother⟩ := List.mem_filter.1 hmem
    obtain ⟨s, live, hderives⟩ := hv.derives key d hmem
    refine ⟨s, ?_, hderives⟩
    have hne : h ≠ d.seed := fun heq => by simp [heq] at hother
    rw [Table.find?_erase, if_neg hne]
    exact live

theorem setAddress (hv : v.Sound) {key : PublicKey} {d : AddressDetails} {s : Seed}
    (live : v.seeds.find? d.seed = some s) (derives : d.Derives s key) :
    (v.setAddress key d).Sound := by
  refine { hv with addressesOrdered := hv.addressesOrdered.insert key d, derives := ?_ }
  intro key' d' hmem
  rcases Table.mem_insertEntry hmem with heq | hmem
  · obtain ⟨rfl, rfl⟩ := Prod.mk.inj heq
    exact ⟨s, live, derives⟩
  · exact hv.derives key' d' hmem

theorem dropAddress (hv : v.Sound) (key : PublicKey) :
    Sound { v with addresses := v.addresses.erase key } :=
  { hv with
    addressesOrdered := hv.addressesOrdered.erase key
    derives := fun key' d' hmem => hv.derives key' d' (List.mem_filter.1 hmem).1 }

end Sound

theorem Change.sound {v v' : Vault} {e : Event} (h : v.Change e v') (hv : v.Sound) : v'.Sound := by
  cases h with
  | imported named length fresh room => exact hv.importSeed named length fresh room
  | deleted => exact hv.delete _
  | listed parsed live derived =>
    exact hv.setAddress live (AddressDetails.derives_of_derive parsed derived)
  | enabled listed enables =>
    obtain ⟨s, live, derives⟩ := hv.derives_lookup listed
    rcases enables with ⟨-, rfl⟩ | ⟨fresh, rfl⟩
    · exact hv
    · refine hv.setAddress live (derives.withNetworks (by simp) ?_)
      refine List.nodup_append.2 ⟨derives.distinct, List.pairwise_singleton .., ?_⟩
      intro network hmem other hother
      obtain rfl := List.mem_singleton.1 hother
      exact fun heq => fresh (heq ▸ hmem)
  | disabled listed disables =>
    obtain ⟨s, live, derives⟩ := hv.derives_lookup listed
    rcases disables with ⟨-, rfl⟩ | ⟨left, rfl⟩
    · exact hv.dropAddress _
    · exact hv.setAddress live (derives.withNetworks left (derives.distinct.sublist List.filter_sublist))

theorem Changes.sound {v v' : Vault} {events : List Event} (h : v.Changes events v') (hv : v.Sound) :
    v'.Sound :=
  h.keep (fun _ _ _ hchange => hchange.sound) hv

/-- A vault that was new once is sound whatever it was asked since. It counts no more
handles than seeds were to be kept, so that their numbers last as long as these are
fewer than there are numbers. Whatever it is asked next, it does in place as it does at
once, and a failure leaves it as it was, unless several addresses were to be created. -/
theorem address_book_stays_sound (authenticator : Authenticator) (ops : List Operation) :
    Sound (after { authenticator } ops) ∧
      (after { authenticator } ops).next.toNat ≤ ops.countP Operation.isImport ∧
      ∀ op, perform op (after { authenticator } ops) = (after { authenticator } ops).run op ∧
        (op.isPopulate = false → ∀ f v', (after { authenticator } ops).run op = (.error f, v') →
          v' = after { authenticator } ops) := by
  obtain ⟨events, hchanges, hcount⟩ := changes_after { authenticator } ops
  refine ⟨hchanges.sound (sound_empty authenticator), ?_, fun op => ⟨perform_eq_run op _, ?_⟩⟩
  · rw [hchanges.next_eq_of_new]
    exact hcount
  · exact fun single f v' h => run_of_error single h

end Vault

end ColdSigner
