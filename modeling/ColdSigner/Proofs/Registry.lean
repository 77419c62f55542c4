import ColdSigner.Proofs.Review.Transaction
import ColdSigner.Proofs.Table
import Mathlib.Data.List.Basic

/-! Which metadata serves a request.

A registry that was empty once lists its entries in the order of their networks and
versions, each under its own (`Filed`). So a lookup finds the entry of just the version
that was asked for, or tells which versions there are instead. No entry takes the place
of another: what is stored stays until it is removed, and a transaction that was
accepted with it is accepted again, whatever is stored since. -/
namespace ColdSigner

/-! ### The order of entries -/

section Order

variable {n : Nat}

instance : Std.Asymm (α := FixedBytes n) (· < ·) := ⟨fun _ _ h => List.lt_asymm h⟩

instance : Trans (α := FixedBytes n) (· < ·) (· < ·) (· < ·) := ⟨fun h h' => List.lt_trans h h'⟩

instance : Std.Trichotomous (α := FixedBytes n) (· < ·) :=
  ⟨fun _ _ h h' => FixedBytes.ext (List.le_antisymm h' h)⟩

instance : Std.Asymm (α := EntryKey) (· < ·) where
  asymm _ _ h h' := by
    rcases h with h | ⟨hn, h⟩ <;> rcases h' with h' | ⟨hn', h'⟩
    · exact List.lt_asymm h h'
    · exact List.lt_irrefl _ (hn' ▸ h)
    · exact List.lt_irrefl _ (hn ▸ h')
    · exact UInt32.lt_asymm h h'

instance : Trans (α := EntryKey) (· < ·) (· < ·) (· < ·) where
  trans h h' := by
    rcases h with h | ⟨hn, h⟩ <;> rcases h' with h' | ⟨hn', h'⟩
    · exact .inl (Trans.trans h h')
    · exact .inl (hn' ▸ h)
    · exact .inl (hn ▸ h')
    · exact .inr ⟨hn.trans hn', UInt32.lt_trans h h'⟩

instance : Std.Trichotomous (α := EntryKey) (· < ·) where
  trichotomous a b h h' := by
    obtain ⟨network, version⟩ := a
    obtain ⟨network', version'⟩ := b
    obtain ⟨hnetwork, hversion⟩ := not_or.1 h
    obtain ⟨hnetwork', hversion'⟩ := not_or.1 h'
    obtain rfl : network = network' :=
      Std.Trichotomous.trichotomous (r := (· < ·)) _ _ hnetwork hnetwork'
    have hle : version' ≤ version := UInt32.not_lt.1 fun hlt => hversion ⟨rfl, hlt⟩
    have hle' : version ≤ version' := UInt32.not_lt.1 fun hlt => hversion' ⟨rfl, hlt⟩
    rw [UInt32.le_antisymm hle' hle]

end Order

/-! ### Repeats in a list that ascends -/

section Repeats

variable {α : Type} [DecidableEq α] {a x : α} {l kept : List α}

theorem mem_eraseReps_loop :
    x ∈ List.eraseRepsBy.loop (· == ·) a l kept ↔ x ∈ kept ∨ x ∈ a :: l := by
  induction l generalizing a kept with
  | nil => simp [List.eraseRepsBy.loop, or_comm]
  | cons b l ih =>
    unfold List.eraseRepsBy.loop
    split
    · next same =>
      obtain rfl := eq_of_beq same
      rw [ih]
      simp
    · rw [ih]
      simp [or_assoc, or_left_comm]

theorem mem_eraseReps : x ∈ l.eraseReps ↔ x ∈ l := by
  cases l with
  | nil => exact Iff.rfl
  | cons a l => exact mem_eraseReps_loop.trans (by simp)

variable [LT α] [Trans (α := α) (· < ·) (· < ·) (· < ·)]

/-- What was kept is below `a`, in reverse, and what follows is not. -/
theorem pairwise_eraseReps_loop (below : (a :: kept).Pairwise fun x y => y < x)
    (ascend : (a :: l).Pairwise fun x y => x < y ∨ x = y) :
    (List.eraseRepsBy.loop (· == ·) a l kept).Pairwise (· < ·) := by
  induction l generalizing a kept with
  | nil => exact List.pairwise_reverse.2 below
  | cons b l ih =>
    obtain ⟨hfirst, hrest⟩ := List.pairwise_cons.1 ascend
    unfold List.eraseRepsBy.loop
    split
    · next same =>
      obtain rfl := eq_of_beq same
      exact ih below hrest
    · next other =>
      have hlt : a < b := (hfirst b (List.mem_cons_self ..)).resolve_right fun heq =>
        Bool.false_ne_true (other.symm.trans (beq_iff_eq.2 heq))
      refine ih (List.pairwise_cons.2 ⟨fun x hx => ?_, below⟩) hrest
      rcases List.mem_cons.1 hx with rfl | hx
      · exact hlt
      · exact Trans.trans ((List.pairwise_cons.1 below).1 x hx) hlt

/-- A list that ascends has each element once when its repeats are erased. -/
theorem pairwise_eraseReps (ascend : l.Pairwise fun x y => x < y ∨ x = y) :
    l.eraseReps.Pairwise (· < ·) := by
  cases l with
  | nil => exact .nil
  | cons a l => exact pairwise_eraseReps_loop (List.pairwise_singleton ..) ascend

end Repeats

/-- What an entry is stored under. -/
def Entry.key (e : Entry) : EntryKey := ⟨e.network, e.specVersion⟩

namespace Registry

/-! ### Operations -/

inductive Operation where
  | load (network : NetworkId) (blob : Bytes)
  | insert (e : Entry)
  | remove (network : NetworkId) (version : UInt32)

/-- Whether an entry may be dropped. -/
def Operation.isRemove : Operation → Bool
  | .remove .. => true
  | _ => false

/-- An entry that is to be stored; where it is refused, nothing changes. -/
def storing (r : Registry) :
    Except RegistryError (Entry × Registry) → Except RegistryError (Option Entry) × Registry
  | .ok (e, r') => (.ok (some e), r')
  | .error f => (.error f, r)

/-- One operation: the entry that was stored or dropped, and the registry after it. -/
def run (r : Registry) : Operation → Except RegistryError (Option Entry) × Registry
  | .load network blob => r.storing (r.load network blob)
  | .insert e => r.storing (r.insert e)
  | .remove network version => (.ok (r.entries.find? ⟨network, version⟩), r.remove network version)

/-- The registry after operations in turn. -/
def after (r : Registry) (ops : List Operation) : Registry := ops.foldl (fun r op => (r.run op).2) r

/-! ### What becomes of an entry -/

/-- An entry is stored where there is none, or where it is stored already. -/
theorem insert_eq_ok {r r' : Registry} {e x : Entry} :
    r.insert e = .ok (x, r') ↔ x = e ∧ ((r.entries.find? e.key = some e ∧ r' = r) ∨
      r.entries.find? e.key = none ∧ r' = ⟨r.entries.insert e.key e⟩) := by
  have hkey : (⟨e.network, e.specVersion⟩ : EntryKey) = e.key := rfl
  simp only [insert, hkey]
  cases r.entries.find? e.key with
  | none => simp [Entry.key, eq_comm]
  | some stored =>
    by_cases same : stored = e
    · simp [same, eq_comm]
    · simp [same]

/-- Another entry is in its way, and nothing else. -/
theorem insert_eq_error {r : Registry} {e : Entry} {f : RegistryError} :
    r.insert e = .error f ↔ f = .alreadyLoaded e.network e.specVersion ∧
      ∃ stored, r.entries.find? e.key = some stored ∧ stored ≠ e := by
  have hkey : (⟨e.network, e.specVersion⟩ : EntryKey) = e.key := rfl
  simp only [insert, hkey]
  cases r.entries.find? e.key with
  | none => simp
  | some stored =>
    by_cases same : stored = e
    · simp [same]
    · simp [same, @eq_comm _ f]

/-- A blob that can be read is stored like its entry, and no other blob is. -/
theorem load_eq (r : Registry) (network : NetworkId) (blob : Bytes) :
    r.load network blob = match Entry.load network blob with
      | .ok e => r.insert e
      | .error f => .error (.malformed f.message) := rfl

/-- One operation stores an entry where there was none, drops one, or changes nothing. -/
theorem run_cases (r : Registry) (op : Operation) :
    (r.run op).2 = r ∨
      (∃ e, r.entries.find? e.key = none ∧ (r.run op).2 = ⟨r.entries.insert e.key e⟩) ∨
        ∃ network version, op = .remove network version ∧ (r.run op).2 = r.remove network version := by
  have hinsert (e : Entry) : (r.storing (r.insert e)).2 = r ∨
      ∃ new, r.entries.find? new.key = none ∧
        (r.storing (r.insert e)).2 = ⟨r.entries.insert new.key new⟩ := by
    cases h : r.insert e with
    | error => exact .inl rfl
    | ok stored =>
      obtain ⟨-, ⟨-, same⟩ | ⟨free, inserted⟩⟩ := insert_eq_ok.1 h
      · exact .inl same
      · exact .inr ⟨e, free, inserted⟩
  cases op with
  | insert e => exact (hinsert e).imp_right .inl
  | load network blob =>
    simp only [run, load_eq]
    cases Entry.load network blob with
    | error => exact .inl rfl
    | ok e => exact (hinsert e).imp_right .inl
  | remove network version => exact .inr (.inr ⟨network, version, rfl, rfl⟩)

/-- What is stored under a key stays there until it is removed. -/
theorem find?_run {r : Registry} {k : EntryKey} {e : Entry} {op : Operation}
    (stored : r.entries.find? k = some e) (kept : op ≠ .remove k.network k.specVersion) :
    (r.run op).2.entries.find? k = some e := by
  rcases r.run_cases op with h | ⟨new, free, h⟩ | ⟨network, version, rfl, h⟩
  · rw [h]
    exact stored
  · have hne : new.key ≠ k := fun heq => by
      rw [heq, stored] at free
      cases free
    rw [h, Table.find?_insert, if_neg hne]
    exact stored
  · have hne : (⟨network, version⟩ : EntryKey) ≠ k := fun heq => kept (heq ▸ rfl)
    rw [h, remove, Table.find?_erase, if_neg hne]
    exact stored

theorem find?_after {r : Registry} {k : EntryKey} {e : Entry} {ops : List Operation}
    (stored : r.entries.find? k = some e) (kept : .remove k.network k.specVersion ∉ ops) :
    (r.after ops).entries.find? k = some e := by
  induction ops generalizing r with
  | nil => exact stored
  | cons op ops ih =>
    obtain ⟨hfirst, hrest⟩ := List.ne_and_not_mem_of_not_mem_cons kept
    exact ih (find?_run stored hfirst.symm) hrest

/-! ### The entries of a registry -/

/-- Every entry is stored under its own network and version, in the order of these. -/
structure Filed (r : Registry) : Prop where
  ordered : r.entries.Ordered
  keyed : ∀ k e, (k, e) ∈ r.entries.entries → e.key = k

theorem filed_empty : Filed {} := ⟨Table.ordered_empty, nofun⟩

/-- What a version of a network is answered with: the entry of just this version, or
why there is none. -/
inductive Selects (r : Registry) (network : NetworkId) (version : UInt32) :
    Except RegistryError Entry → Prop where
  | exact {e : Entry} (stored : e ∈ r.entries.values) (network_eq : e.network = network)
      (version_eq : e.specVersion = version) : Selects r network version (.ok e)
  | unknown (none : ∀ e ∈ r.entries.values, e.network ≠ network) :
      Selects r network version (.error (.unknownNetwork network))
  /-- Other versions are there, and these are all. -/
  | mismatch {available : List UInt32} (some : available ≠ []) (missing : version ∉ available)
      (ascending : available.Pairwise (· < ·))
      (all : ∀ v, v ∈ available ↔ ∃ e ∈ r.entries.values, e.network = network ∧ e.specVersion = v) :
      Selects r network version (.error (.versionMismatch network version available))

/-- The entry of the highest version of a network. -/
structure IsLatest (r : Registry) (network : NetworkId) (e : Entry) : Prop where
  stored : e ∈ r.entries.values
  network_eq : e.network = network
  greatest : ∀ e' ∈ r.entries.values, e'.network = network → e'.specVersion ≤ e.specVersion

/-- What a network is answered with where no version is asked for. -/
inductive SelectsLatest (r : Registry) (network : NetworkId) : Except RegistryError Entry → Prop where
  | greatest {e : Entry} (latest : r.IsLatest network e) : SelectsLatest r network (.ok e)
  | unknown (none : ∀ e ∈ r.entries.values, e.network ≠ network) :
      SelectsLatest r network (.error (.unknownNetwork network))

/-- The latest entry of every network, each once and in the order of networks. -/
structure ListsLatest (r : Registry) (listed : List Entry) : Prop where
  ascending : (listed.map Entry.network).Pairwise (· < ·)
  latest : ∀ e ∈ listed, r.IsLatest e.network e
  all : ∀ e ∈ r.entries.values, ∃ e' ∈ listed, e'.network = e.network

/-- An entry stays: it may be stored again, no other is stored in its place, and it is
found until it is removed. -/
structure Keeps (r : Registry) (e : Entry) : Prop where
  again : r.run (.insert e) = (.ok (some e), r)
  conflict : ∀ e', e'.key = e.key → e' ≠ e →
    r.run (.insert e') = (.error (.alreadyLoaded e.network e.specVersion), r)
  load : ∀ network blob e', Entry.load network blob = .ok e' →
    r.run (.load network blob) = r.run (.insert e')
  found : ∀ more, .remove e.network e.specVersion ∉ more →
    (r.after more).get e.network e.specVersion = .ok e

theorem mem_ofNetwork {r : Registry} {network : NetworkId} {e : Entry} :
    e ∈ r.ofNetwork network ↔ e ∈ r.entries.values ∧ e.network = network := by
  simp [ofNetwork]

theorem mem_versions {r : Registry} {network : NetworkId} {v : UInt32} :
    v ∈ r.versions network ↔ ∃ e ∈ r.entries.values, e.network = network ∧ e.specVersion = v := by
  simp [versions, mem_ofNetwork, and_assoc]

theorem get_eq_ok {r : Registry} {network : NetworkId} {version : UInt32} {e : Entry} :
    r.get network version = .ok e ↔ r.entries.find? ⟨network, version⟩ = some e := by
  unfold get
  cases r.entries.find? ⟨network, version⟩ with
  | some stored => simp
  | none =>
    dsimp only
    split <;> simp

namespace Filed

variable {r : Registry}

theorem run (h : r.Filed) (op : Operation) : (r.run op).2.Filed := by
  rcases r.run_cases op with heq | ⟨e, -, heq⟩ | ⟨network, version, -, heq⟩
  · rw [heq]
    exact h
  · rw [heq]
    refine ⟨h.ordered.insert .., fun k x hmem => ?_⟩
    rcases Table.mem_insertEntry hmem with hnew | hmem
    · obtain ⟨rfl, rfl⟩ := Prod.mk.inj hnew
      rfl
    · exact h.keyed k x hmem
  · rw [heq]
    exact ⟨h.ordered.erase _, fun k x hmem => h.keyed k x (List.mem_filter.1 hmem).1⟩

theorem after (h : r.Filed) (ops : List Operation) : (r.after ops).Filed := by
  induction ops generalizing r with
  | nil => exact h
  | cons op ops ih => exact ih (h.run op)

theorem mem_values (h : r.Filed) {e : Entry} :
    e ∈ r.entries.values ↔ r.entries.find? e.key = some e := by
  rw [h.ordered.find?_eq_some]
  constructor
  · intro hmem
    obtain ⟨⟨k, x⟩, hlisted, rfl⟩ := List.mem_map.1 hmem
    rw [h.keyed k x hlisted]
    exact hlisted
  · exact fun hmem => List.mem_map_of_mem hmem

theorem ofNetwork_ascend (h : r.Filed) (network : NetworkId) :
    (r.ofNetwork network).Pairwise fun a b => a.specVersion < b.specVersion := by
  have hvalues : r.entries.values.Pairwise fun a b => a.key < b.key := by
    refine List.pairwise_map.2 (h.ordered.imp_of_mem fun {a b} ha hb hlt => ?_)
    rw [h.keyed a.1 a.2 ha, h.keyed b.1 b.2 hb]
    exact hlt
  refine (hvalues.sublist List.filter_sublist).imp_of_mem fun {a b} ha hb hlt => ?_
  obtain ⟨-, rfl⟩ := mem_ofNetwork.1 ha
  rcases hlt with hlt | ⟨-, hlt⟩
  · have hsame : b.network = a.network := (mem_ofNetwork.1 hb).2
    change a.network.bytes < b.network.bytes at hlt
    rw [hsame] at hlt
    exact absurd hlt (List.lt_irrefl _)
  · exact hlt

/-- A lookup answers for just the version that was asked for. -/
theorem selects_get (h : r.Filed) (network : NetworkId) (version : UInt32) :
    r.Selects network version (r.get network version) := by
  unfold get
  split
  · next e he =>
    have hkey : e.key = ⟨network, version⟩ := h.keyed _ e (h.ordered.find?_eq_some.1 he)
    refine .exact (h.mem_values.2 (hkey ▸ he)) ?_ ?_
    · exact congrArg EntryKey.network hkey
    · exact congrArg EntryKey.specVersion hkey
  · next hnone =>
    split
    · next hempty =>
      refine .unknown fun e hmem hnetwork => ?_
      have hversion : e.specVersion ∈ r.versions network := mem_versions.2 ⟨e, hmem, hnetwork, rfl⟩
      rw [hempty] at hversion
      cases hversion
    · next hsome =>
      refine .mismatch hsome (fun hmem => ?_) (List.pairwise_map.2 (h.ofNetwork_ascend network))
        fun v => mem_versions
      obtain ⟨e, hlisted, rfl, rfl⟩ := mem_versions.1 hmem
      cases hnone.symm.trans (h.mem_values.1 hlisted)

theorem selects_latest (h : r.Filed) (network : NetworkId) :
    r.SelectsLatest network (r.latest network) := by
  unfold latest
  split
  · next e hlast =>
    obtain ⟨others, hsplit⟩ := List.getLast?_eq_some_iff.1 hlast
    have hascend := h.ofNetwork_ascend network
    rw [hsplit] at hascend
    obtain ⟨hmem, hnetwork⟩ := mem_ofNetwork.1 (hsplit ▸ List.mem_concat_self)
    refine .greatest ⟨hmem, hnetwork, fun e' hmem' hnetwork' => ?_⟩
    have hlisted : e' ∈ others ++ [e] := hsplit ▸ mem_ofNetwork.2 ⟨hmem', hnetwork'⟩
    rcases List.mem_append.1 hlisted with hlisted | hlisted
    · have hlt := (List.pairwise_append.1 hascend).2.2 e' hlisted e (List.mem_singleton_self e)
      exact UInt32.le_of_lt hlt
    · obtain rfl := List.mem_singleton.1 hlisted
      exact UInt32.le_refl _
  · next hnone =>
    refine .unknown fun e hmem hnetwork => ?_
    have hlisted := mem_ofNetwork.2 ⟨hmem, hnetwork⟩
    rw [List.getLast?_eq_none_iff.1 hnone] at hlisted
    cases hlisted

theorem mem_networkIds (h : r.Filed) {network : NetworkId} :
    network ∈ r.networkIds ↔ ∃ e ∈ r.entries.values, e.network = network := by
  simp only [networkIds, mem_eraseReps, Table.keys, Table.values, List.mem_map, exists_exists_and_eq_and]
  constructor
  · rintro ⟨⟨k, e⟩, hmem, rfl⟩
    exact ⟨(k, e), hmem, congrArg EntryKey.network (h.keyed k e hmem)⟩
  · rintro ⟨⟨k, e⟩, hmem, rfl⟩
    exact ⟨(k, e), hmem, congrArg EntryKey.network (h.keyed k e hmem).symm⟩

/-- The networks are listed each once, in ascending order. -/
theorem networkIds_ascend (h : r.Filed) : r.networkIds.Pairwise (· < ·) := by
  refine pairwise_eraseReps (List.pairwise_map.2 (List.pairwise_map.2 (h.ordered.imp fun hlt => ?_)))
  exact hlt.imp_right And.left

/-- Every network that is listed has a latest entry. -/
theorem exists_latest (h : r.Filed) {network : NetworkId} (listed : network ∈ r.networkIds) :
    ∃ e, r.latest network = .ok e ∧ r.IsLatest network e := by
  have hselects := h.selects_latest network
  cases hlatest : r.latest network with
  | ok e =>
    rw [hlatest] at hselects
    cases hselects with
    | greatest latest => exact ⟨e, rfl, latest⟩
  | error =>
    rw [hlatest] at hselects
    cases hselects with
    | unknown none =>
      obtain ⟨e, stored, hnetwork⟩ := h.mem_networkIds.1 listed
      exact absurd hnetwork (none e stored)

/-- The latest entries are those of all networks in turn. -/
theorem map_networks (h : r.Filed) : r.networks.map Entry.network = r.networkIds := by
  have hnetwork : ∀ network ∈ r.networkIds,
      (r.latest network).toOption.map Entry.network = some network := by
    intro network listed
    obtain ⟨e, hlatest, latest⟩ := h.exists_latest listed
    rw [hlatest]
    exact congrArg some latest.network_eq
  rw [networks, List.map_filterMap]
  exact (List.filterMap_congr hnetwork).trans List.filterMap_some

theorem lists_networks (h : r.Filed) : r.ListsLatest r.networks where
  ascending := by
    rw [h.map_networks]
    exact h.networkIds_ascend
  latest := by
    intro e listed
    obtain ⟨network, hmem, hlatest⟩ := List.mem_filterMap.1 listed
    obtain ⟨x, hx, latest⟩ := h.exists_latest hmem
    rw [hx] at hlatest
    obtain rfl := Option.some.inj hlatest
    rw [latest.network_eq]
    exact latest
  all := by
    intro e stored
    have hmem : e.network ∈ r.networks.map Entry.network := by
      rw [h.map_networks]
      exact h.mem_networkIds.2 ⟨e, stored, rfl⟩
    exact List.mem_map.1 hmem

theorem keeps (h : r.Filed) {e : Entry} (stored : e ∈ r.entries.values) : r.Keeps e where
  again := by
    rw [Registry.run, insert_eq_ok.2 ⟨rfl, .inl ⟨h.mem_values.1 stored, rfl⟩⟩]
    rfl
  conflict := by
    intro e' same other
    have hfind := h.mem_values.1 stored
    rw [← same] at hfind
    have hkey := EntryKey.mk.inj same
    rw [Registry.run, insert_eq_error.2 ⟨rfl, e, hfind, other.symm⟩, hkey.1, hkey.2]
    rfl
  load := by
    intro network blob e' hload
    rw [Registry.run, Registry.run, load_eq, hload]
  found := fun _ kept => get_eq_ok.2 (find?_after (k := e.key) (h.mem_values.1 stored) kept)

end Filed

end Registry

/-! ### Requests -/

namespace Review

/-- A transaction asks for one entry, and is read alike wherever it is found. -/
theorem readTransaction_of_entry {payload : Bytes} {scheme : Scheme} {source source' : MetadataSource}
    {l : Limits} {review : Review}
    (found : ∀ network version e, source.entry network version = .ok e →
      source'.entry network version = .ok e)
    (h : readTransaction payload scheme source l = .ok review) :
    readTransaction payload scheme source' l = .ok review := by
  simp only [readTransaction, bind_eq_ok, Prod.exists] at h ⊢
  obtain ⟨f, hf, n, c, hcount, x, hx, h⟩ := h
  refine ⟨f, hf, n, c, hcount, x, hx, ?_⟩
  split at h
  · next m _ => cases m <;> cases h
  · next e he =>
    rw [found _ _ e he]
    exact h

theorem decodeKind_transaction_of_entry {payload : Bytes} {source source' : MetadataSource} {l : Limits}
    {review : Review}
    (found : ∀ network version e, source.entry network version = .ok e →
      source'.entry network version = .ok e)
    (h : decodeKind .transaction payload source l = .ok review) :
    decodeKind .transaction payload source' l = .ok review := by
  obtain ⟨⟨scheme, hp⟩, h⟩ := decodeKind_eq_ok.1 h
  obtain ⟨p, hp', ⟨hkind, h⟩ | ⟨hkind, -⟩ | ⟨hkind, -⟩⟩ := decodeRequest_eq_ok.1 h
  · exact decodeKind_eq_ok.2 ⟨⟨scheme, hp⟩,
      decodeRequest_eq_ok.2 ⟨p, hp', .inl ⟨hkind, readTransaction_of_entry found h⟩⟩⟩
  · obtain rfl := Except.ok.inj (hp.symm.trans hp')
    cases hkind
  · obtain rfl := Except.ok.inj (hp.symm.trans hp')
    cases hkind

end Review

namespace Registry

/-- A registry that was empty once has every entry under its own network and version,
and answers for just the version that is asked for. An entry that it has stays until it
is removed, so that a transaction which was accepted is accepted with the same review
after whatever is stored since. -/
theorem metadata_immutable_and_exact (ops : List Operation) :
    (after {} ops).Filed ∧
      (∀ network version,
        (after {} ops).Selects network version ((after {} ops).get network version)) ∧
      (∀ network, (after {} ops).SelectsLatest network ((after {} ops).latest network)) ∧
      (after {} ops).ListsLatest (after {} ops).networks ∧
      (∀ e ∈ (after {} ops).entries.values, (after {} ops).Keeps e) ∧
      ∀ payload l review more,
        Review.decodeKind .transaction payload (after {} ops).source l = .ok review →
          (∀ op ∈ more, op.isRemove = false) →
            Review.decodeKind .transaction payload ((after {} ops).after more).source l =
              .ok review := by
  have h := filed_empty.after ops
  refine ⟨h, h.selects_get, h.selects_latest, h.lists_networks, fun e => h.keeps, ?_⟩
  intro payload l review more accepted stores
  refine Review.decodeKind_transaction_of_entry (fun network version e found => ?_) accepted
  have kept : .remove network version ∉ more := fun hmem => Bool.noConfusion (stores _ hmem)
  exact get_eq_ok.2 (find?_after (k := ⟨network, version⟩) (get_eq_ok.1 found) kept)

/-- The next version of the small network. -/
def nextSampleEntry : Entry where
  network := Review.sampleEntry.network
  metadata := { Review.sampleMetadata with specVersion := 2 }
  minSizes := #[1, 2]
  fault_eq := by decide
  sizes_eq := Review.minSizes_sampleMetadata

/-- A transaction is accepted as before when there is a later version of its network. -/
theorem sample_accepted_with_its_version :
    Review.decodeKind .transaction Review.sampleTransaction.encode
        ((after {} [.insert Review.sampleEntry]).after [.insert nextSampleEntry]).source {} =
        .ok Review.sampleTransaction.review ∧
      ((after {} [.insert Review.sampleEntry]).after [.insert nextSampleEntry]).latest
        Review.sampleEntry.network = .ok nextSampleEntry := by
  have accepted : Review.decodeKind .transaction Review.sampleTransaction.encode
      (after {} [.insert Review.sampleEntry]).source {} = .ok Review.sampleTransaction.review :=
    Review.decodeKind_sampleTransaction
  obtain ⟨-, -, -, -, -, again⟩ := metadata_immutable_and_exact [.insert Review.sampleEntry]
  exact ⟨again _ _ _ _ accepted (List.forall_mem_singleton.2 rfl), by rfl⟩

end Registry

end ColdSigner
