import ColdSigner.Proofs.Vault.Lasting

/-! On which networks a key is enabled.

The networks of a key are edited in place, its entry comes and goes with them, and a
seed takes all of its keys along. None of this can be seen in the outcome: a key is
enabled on a network if the last thing that happened to it there was its creation. What
happened is told by the operations that succeeded (`history`), each with the vault that
it found, since only that says whose a key was when a seed was deleted. -/
namespace ColdSigner.Vault

variable {v v' : Vault} {key : PublicKey} {network : NetworkId}

/-! ### History -/

/-- All that happens in operations in turn. -/
def history (v : Vault) : List Operation → List Happening
  | [] => []
  | op :: ops => v.happenings op ++ history (v.run op).2 ops

theorem happened_after (v : Vault) (ops : List Operation) :
    v.Happened (v.history ops) (v.after ops) := by
  induction ops generalizing v with
  | nil => exact .none v
  | cons op ops ih => exact (v.happened_run op).append (ih (v.run op).2)

theorem Happened.sound {past : List Happening} (h : v.Happened past v') (hv : v.Sound) : v'.Sound :=
  h.changes.sound hv

/-! ### Networks -/

/-- Whether an address was created. -/
def Event.isCreation : Event → Bool
  | .created .. => true
  | _ => false

/-- Whether it tells if the key is enabled on the network: it was created or removed
there, or it went with its seed. -/
def Happening.concerns (key : PublicKey) (network : NetworkId) : Happening → Bool
  | ⟨_, .created _ key' network'⟩ | ⟨_, .removed key' network'⟩ => key' = key ∧ network' = network
  | ⟨before, .deleted h⟩ => (before.lookup key).any fun d => d.seed = h
  | ⟨_, .imported _⟩ => false

theorem isSome_lookupOn (v : Vault) (key : PublicKey) (network : NetworkId) :
    (v.lookupOn key network).isSome = (v.lookup key).any fun d => network ∈ d.networks :=
  Option.isSome_filter

theorem isSome_lookupOn_of_lookup {d : AddressDetails} (listed : v.lookup key = some d) :
    (v.lookupOn key network).isSome = decide (network ∈ d.networks) := by
  rw [isSome_lookupOn, listed]
  rfl

theorem isSome_lookupOn_setAddress (v : Vault) (key' key : PublicKey) (network : NetworkId)
    (d : AddressDetails) :
    ((v.setAddress key' d).lookupOn key network).isSome =
      if key' = key then decide (network ∈ d.networks) else (v.lookupOn key network).isSome := by
  rw [isSome_lookupOn, isSome_lookupOn, lookup_setAddress]
  split <;> rfl

/-- A key is enabled on a network as well, and no other key and no other network. -/
theorem Enables.isSome_lookupOn {key' : PublicKey} {network' : NetworkId} {d : AddressDetails}
    (listed : v.lookup key' = some d) (enables : v.Enables key' network' d v') :
    (v'.lookupOn key network).isSome =
      if key' = key ∧ network' = network then true else (v.lookupOn key network).isSome := by
  rcases enables with ⟨enabled, rfl⟩ | ⟨-, rfl⟩
  · split
    · next same =>
      obtain ⟨rfl, rfl⟩ := same
      rw [isSome_lookupOn_of_lookup listed]
      exact decide_eq_true enabled
    · rfl
  · rw [isSome_lookupOn_setAddress]
    by_cases hkey : key' = key
    · subst hkey
      rw [isSome_lookupOn_of_lookup listed]
      rcases eq_or_ne network' network with rfl | hne
      · simp
      · simp [hne, hne.symm]
    · rw [if_neg hkey, if_neg fun same => hkey same.1]

/-- A key is no longer enabled on a network, and all else is as before. -/
theorem Disables.isSome_lookupOn {key' : PublicKey} {network' : NetworkId} {d : AddressDetails}
    (listed : v.lookup key' = some d) (disables : v.Disables key' network' d v') :
    (v'.lookupOn key network).isSome =
      if key' = key ∧ network' = network then false else (v.lookupOn key network).isSome := by
  by_cases hkey : key' = key
  · subst hkey
    have hleft : (v'.lookupOn key' network).isSome =
        decide (network ∈ d.networks.filter (· ≠ network')) := by
      rcases disables with ⟨last, rfl⟩ | ⟨-, rfl⟩
      · rw [Vault.isSome_lookupOn, lookup, Table.find?_erase, if_pos rfl, last]
        rfl
      · rw [isSome_lookupOn_setAddress, if_pos rfl]
    rw [hleft, isSome_lookupOn_of_lookup listed]
    rcases eq_or_ne network' network with rfl | hne
    · simp
    · simp [hne, hne.symm]
  · rw [if_neg fun same => hkey same.1]
    rcases disables with ⟨-, rfl⟩ | ⟨-, rfl⟩
    · rw [Vault.isSome_lookupOn, Vault.isSome_lookupOn, lookup, Table.find?_erase, if_neg hkey]
      rfl
    · rw [isSome_lookupOn_setAddress, if_neg hkey]

/-- What concerns a key on a network leaves it enabled there if it is a creation.
Nothing else makes a difference. -/
theorem Change.isSome_lookupOn {e : Event} (change : v.Change e v') (hv : v.Sound)
    (key : PublicKey) (network : NetworkId) :
    (v'.lookupOn key network).isSome =
      if Happening.concerns key network ⟨v, e⟩ then e.isCreation
      else (v.lookupOn key network).isSome := by
  cases change with
  | imported => rfl
  | @deleted h =>
    rw [Vault.isSome_lookupOn, Vault.isSome_lookupOn, lookup, hv.addressesOrdered.find?_filter,
      ← lookup, Option.any_filter]
    cases hfind : v.lookup key with
    | none => simp [Happening.concerns, hfind]
    | some d =>
      by_cases howner : d.seed = h <;>
        simp [Happening.concerns, Event.isCreation, hfind, howner]
  | @listed h s path p scheme k network' parsed live derived new =>
    rw [isSome_lookupOn_setAddress]
    by_cases hkey : k.publicKey = key
    · subst hkey
      have hnone : (v.lookupOn k.publicKey network).isSome = false := by
        rw [Vault.isSome_lookupOn, new]
        rfl
      rcases eq_or_ne network' network with rfl | hne
      · simp [Happening.concerns, Event.isCreation]
      · simp [Happening.concerns, hnone, hne, hne.symm]
    · simp [Happening.concerns, hkey]
  | enabled listed enables =>
    rw [enables.isSome_lookupOn listed]
    simp only [Happening.concerns, Event.isCreation, decide_eq_true_eq]
  | disabled listed disables =>
    rw [disables.isSome_lookupOn listed]
    simp only [Happening.concerns, Event.isCreation, decide_eq_true_eq]

/-- The last thing that concerns a key on a network decides, and before that the vault
as it was at first. -/
theorem Happened.isSome_lookupOn {past : List Happening} (h : v.Happened past v') (hv : v.Sound)
    (key : PublicKey) (network : NetworkId) :
    (v'.lookupOn key network).isSome =
      match past.findRev? (·.concerns key network) with
      | .some last => last.event.isCreation
      | .none => (v.lookupOn key network).isSome := by
  induction h with
  | none => rfl
  | @more v v' v'' e past first others ih =>
    rw [ih (first.sound hv), List.findRev?]
    cases past.findRev? (·.concerns key network) with
    | some last => rfl
    | none =>
      rw [first.isSome_lookupOn hv]
      dsimp only
      split <;> rfl

/-- A key is enabled on a network if and only if the last thing that concerns it there
is its creation. -/
theorem Happened.isSome_lookupOn_iff {past : List Happening} {authenticator : Authenticator}
    (h : Happened { authenticator } past v) (key : PublicKey) (network : NetworkId) :
    (v.lookupOn key network).isSome = true ↔ ∃ before h,
      past.findRev? (·.concerns key network) = some ⟨before, .created h key network⟩ := by
  rw [h.isSome_lookupOn (sound_empty authenticator)]
  constructor
  · intro enabled
    split at enabled
    · next last hlast =>
      obtain ⟨before, e⟩ := last
      have hconcerns : Happening.concerns key network ⟨before, e⟩ = true := by
        rw [List.findRev?_eq_find?_reverse] at hlast
        exact List.find?_some hlast
      cases e with
      | created h key' network' =>
        obtain ⟨rfl, rfl⟩ := of_decide_eq_true hconcerns
        exact ⟨before, h, hlast⟩
      | imported | deleted | removed => cases enabled
    · cases enabled
  · rintro ⟨before, h, hlast⟩
    rw [hlast]
    rfl

/-! ### Entries -/

/-- A key is listed as long as it is enabled anywhere. -/
theorem Sound.isSome_lookup_iff (hv : v.Sound) (key : PublicKey) :
    (v.lookup key).isSome = true ↔ ∃ network, (v.lookupOn key network).isSome = true := by
  constructor
  · intro hsome
    obtain ⟨d, listed⟩ := Option.isSome_iff_exists.1 hsome
    obtain ⟨s, -, derives⟩ := hv.derives_lookup listed
    obtain ⟨network, enabled⟩ := List.exists_mem_of_ne_nil _ derives.enabled
    exact ⟨network, by rw [isSome_lookupOn_of_lookup listed]; exact decide_eq_true enabled⟩
  · rintro ⟨network, enabled⟩
    rw [Vault.isSome_lookupOn] at enabled
    exact Option.isSome_of_any enabled

/-- A creation drops no entry. -/
theorem Change.isSome_of_created {h : SeedHandle} {key' : PublicKey} {network' : NetworkId}
    (change : v.Change (.created h key' network') v') (listed : (v.lookup key).isSome = true) :
    (v'.lookup key).isSome = true := by
  have hset (d : AddressDetails) : ((v.setAddress key' d).lookup key).isSome = true := by
    rw [lookup_setAddress]
    split
    · rfl
    · exact listed
  cases change with
  | listed => exact hset _
  | enabled _ enables =>
    rcases enables with ⟨-, rfl⟩ | ⟨-, rfl⟩
    · exact listed
    · exact hset _

/-- A key that is listed when addresses are created in turn is listed all along. -/
theorem isSome_before_of_mem_creations {h : SeedHandle} {paths : List (Entry × String)}
    (listed : (v.lookup key).isSome = true) :
    ∀ x ∈ v.creations h paths, (x.before.lookup key).isSome = true := by
  induction paths generalizing v with
  | nil => exact List.forall_mem_nil _
  | cons first rest ih =>
    obtain ⟨e, path⟩ := first
    rw [creations]
    split
    · next key' v' done =>
      refine List.forall_mem_cons.2 ⟨listed, ih ?_⟩
      exact (change_of_createAddress done).isSome_of_created listed
    · split
      · exact List.forall_mem_nil _
      · exact ih listed

/-- So it is in every operation: no entry is dropped on the way. -/
theorem isSome_before_of_mem_happenings (op : Operation) (listed : (v.lookup key).isSome = true) :
    ∀ x ∈ v.happenings op, (x.before.lookup key).isSome = true := by
  have hnoting {α : Type} (event : α → Event) (x : Except VaultError (α × Vault)) :
      ∀ y ∈ v.noting event x, (y.before.lookup key).isSome = true := by
    cases x with
    | error => nofun
    | ok done => exact List.forall_mem_singleton.2 listed
  cases op with
  | importSeed | importPhrase | delete | createAddress | removeAddress => exact hnoting _ _
  | populateDefaults => exact isSome_before_of_mem_creations listed
  | _ => nofun

/-- An entry that was there all along is the same, but for its networks. -/
theorem Happened.lookup_eq {past : List Happening} (h : v.Happened past v') (hv : v.Sound)
    {d : AddressDetails} (listed : v.lookup key = some d)
    (before : ∀ x ∈ past, (x.before.lookup key).isSome = true)
    (still : (v'.lookup key).isSome = true) :
    ∃ networks, v'.lookup key = some { d with networks } := by
  induction h generalizing d with
  | none => exact ⟨d.networks, listed⟩
  | @more v v' v'' e past first others ih =>
    obtain ⟨-, hothers⟩ := List.forall_mem_cons.1 before
    have hlisted' : (v'.lookup key).isSome = true := by
      cases others with
      | none => exact still
      | more => exact hothers _ (List.mem_cons_self ..)
    obtain ⟨d', listed'⟩ := Option.isSome_iff_exists.1 hlisted'
    obtain ⟨d₀, listed₀, hd'⟩ | ⟨new, -⟩ := first.listed_cases hv listed'
    · obtain rfl := Option.some.inj (listed.symm.trans listed₀)
      rw [hd'] at listed'
      obtain ⟨networks, hlookup⟩ := ih (first.sound hv) listed' hothers still
      exact ⟨networks, hlookup⟩
    · cases listed.symm.trans new

/-- What an entry says besides its networks lasts as long as the entry. -/
theorem Sound.lookup_after (hv : v.Sound) {d : AddressDetails} (listed : v.lookup key = some d)
    (more : List Operation)
    (stays : ∀ prior, prior <+: more → ((v.after prior).lookup key).isSome = true) :
    ∃ networks, (v.after more).lookup key = some { d with networks } := by
  induction more generalizing v d with
  | nil => exact ⟨d.networks, listed⟩
  | cons op ops ih =>
    have hstill : ((v.run op).2.lookup key).isSome = true :=
      stays [op] (List.prefix_append [op] ops)
    have hbefore := isSome_before_of_mem_happenings op (Option.isSome_iff_exists.2 ⟨d, listed⟩)
    have happened := v.happened_run op
    obtain ⟨networks, listed'⟩ := happened.lookup_eq hv listed hbefore hstill
    obtain ⟨networks', hlookup⟩ := ih (happened.sound hv) listed' fun prior hprior =>
      stays (op :: prior) (List.cons_prefix_cons.2 ⟨rfl, hprior⟩)
    exact ⟨networks', hlookup⟩

/-- A key that is listed is not created for another seed or along another path. -/
theorem createAddress_eq_collision {h : SeedHandle} {path : String} {specs : NetworkSpecs}
    {k : DerivedKey} {d : AddressDetails} (derived : v.derive h path specs.scheme = .ok k)
    (listed : v.lookup k.key = some d) (other : d.seed ≠ h ∨ d.path ≠ k.path)
    (network : NetworkId) :
    v.createAddress h path network specs = .error (.keyCollision d.seedName) := by
  obtain ⟨p, parsed, secret, hsecret, rfl⟩ := derive_eq_ok.1 derived
  obtain ⟨s, live, -⟩ := secretKey_eq_ok.1 hsecret
  refine bind_eq_error.2 (.inr ⟨p, parsePath_eq_ok.2 parsed, bind_eq_error.2 (.inr ⟨secret, hsecret,
    bind_eq_error.2 (.inr ⟨s, seed_eq_ok.2 live, ?_⟩)⟩)⟩)
  dsimp only
  rw [listed]
  exact if_pos other

/-- In a vault that was new once, a key is enabled on a network if and only if the last
thing that concerns it there is its creation. It is listed as long as it is enabled
anywhere, and while it is, its seed, its path and whether this had a password stay as
they were: it is not created for another seed or along another path. -/
theorem enablement_follows_history (authenticator : Authenticator) (ops : List Operation) :
    (∀ key network, ((after { authenticator } ops).lookupOn key network).isSome = true ↔
      ∃ before h, (history { authenticator } ops).findRev? (·.concerns key network) =
        some ⟨before, .created h key network⟩) ∧
      (∀ key, ((after { authenticator } ops).lookup key).isSome = true ↔
        ∃ network, ((after { authenticator } ops).lookupOn key network).isSome = true) ∧
      (∀ key d more, (after { authenticator } ops).lookup key = some d →
        (∀ prior, prior <+: more →
          (((after { authenticator } ops).after prior).lookup key).isSome = true) →
            ∃ networks, ((after { authenticator } ops).after more).lookup key =
              some { d with networks }) ∧
      ∀ h path network specs k d,
        (after { authenticator } ops).derive h path specs.scheme = .ok k →
          (after { authenticator } ops).lookup k.key = some d → d.seed ≠ h ∨ d.path ≠ k.path →
            (after { authenticator } ops).createAddress h path network specs =
              .error (.keyCollision d.seedName) := by
  have happened := happened_after { authenticator } ops
  have hv := happened.sound (sound_empty authenticator)
  exact ⟨happened.isSome_lookupOn_iff, hv.isSome_lookup_iff,
    fun key d more listed => hv.lookup_after listed more,
    fun h path network specs k d derived listed other =>
      createAddress_eq_collision derived listed other network⟩

end ColdSigner.Vault
