import ColdSigner.Proofs.Review.Termination
import ColdSigner.Proofs.Review.Transaction

/-! No reading meets a type that does not exist.

Metadata is checked when it is accepted: references lead to types, integers stand behind
compact forms, and calls are types of the table. `accepted_tables_resolve` says that this
is enough, whatever a payload selects: a reading stays inside the table, since the parts
of a type of the table are types of the table. A request is read with an entry that a source
gives, and so only the source can bring up a type that does not exist; it has no reason to,
since it is asked for entries (`MetadataSource.AsksNoType`). -/
namespace ColdSigner

/-! ### Sources -/

/-- A lookup that fails for a type. -/
def MetadataSource.Blames (source : MetadataSource) (id : TypeId) : Prop :=
  (∃ network version, source.entry network version = .error (.unknownType id)) ∨
    ∃ network, source.latest network = .error (.unknownType id)

/-- What is assumed of a source: it is asked for entries and not for types, and none of its
lookups fails for a type. -/
structure MetadataSource.AsksNoType (source : MetadataSource) : Prop where
  entry : ∀ network version id, source.entry network version ≠ .error (.unknownType id)
  latest : ∀ network id, source.latest network ≠ .error (.unknownType id)

theorem MetadataSource.AsksNoType.not_blames {source : MetadataSource} (h : source.AsksNoType)
    (id : TypeId) : ¬ source.Blames id := by
  rintro (⟨network, version, blames⟩ | ⟨network, blames⟩)
  · exact h.entry network version id blames
  · exact h.latest network id blames

/-- A registry fails for networks and versions only. -/
theorem Registry.asksNoType (r : Registry) : r.source.AsksNoType where
  entry network version id := by
    show r.get network version ≠ _
    unfold Registry.get
    split
    · nofun
    · split <;> nofun
  latest network id := by
    show r.latest network ≠ _
    unfold Registry.latest
    split <;> nofun

end ColdSigner

namespace ColdSigner.Review

variable {e : Entry} {l : Limits} {p : Place} {f : DecodeFailure}

/-! ### Values -/

/-- A type of the table does not fail by itself. -/
theorem resolves_of_definition {id : TypeId} {d : TypeDef}
    (definition : e.types.definition? id = some d) : Resolves e id := by
  refine ⟨d, definition, fun t compact => ?_⟩
  obtain ⟨te, type, rfl⟩ := Option.map_eq_some_iff.1 definition
  exact (e.consistent.types te (Array.mem_iff_getElem?.2 ⟨_, type⟩)).integer t compact

/-- Values of a type of the table are read with types of the table only. -/
theorem known_readValue {n : Nat} {id : TypeId} {d : TypeDef} {hint : Hint} {indent : Nat}
    (definition : e.types.definition? id = some d) :
    Agree (FailsAlike .unknownType) (readValue e l n id hint indent p)
      (readValue e l n id hint indent p) := by
  induction n generalizing id d hint indent p with
  | zero => exact .error ⟨rfl, nofun⟩
  | succ n ih =>
    show Agree _ (readLevel e l (readValue e l n) id hint indent p) _
    refine readLevel_agree (fun f own unknown => ?_) (fun t hint indent q part => ?_)
      advances_readValue
    · exact own.2 unknown (resolves_of_definition definition)
    · obtain ⟨-, _, b, definition', mem, -⟩ := part
      obtain ⟨_, ht⟩ := e.exists_definition definition' mem
      exact ih ht

theorem known_decodeValue {payload : Bytes} {id : TypeId} (known : id.toNat < e.types.size)
    (h : decodeValue e l payload id = .error f) : f.reason ≠ .unknownType := by
  have definition : e.types.definition? id = some e.types[id.toNat].definition := by
    rw [TypeTable.definition?, Array.getElem?_eq_getElem known, Option.map_some]
  rcases bind_eq_error.1 h with h | ⟨⟨card, q⟩, -, h⟩
  · exact (known_readValue definition).eq_of_alike.2 f h
  · dsimp only at h
    split at h
    · cases h
    · exact (untyped_trailing h).2

/-! ### Requests -/

theorem untyped_readPrelude {payload : Bytes} (h : readPrelude payload = .error f) : Untyped f := by
  unfold readPrelude at h
  split at h
  · cases h
  · obtain rfl := Except.error.inj h
    exact ⟨nofun, nofun⟩
  · obtain rfl := Except.error.inj h
    exact ⟨nofun, nofun⟩

theorem untyped_framing {payload : Bytes} {scheme : Scheme}
    (h : Framing.read payload scheme = .error f) : Untyped f := by
  rcases bind_eq_error.1 h with h | ⟨⟨_, c⟩, -, h⟩
  · exact untyped_take h
  rcases bind_eq_error.1 h with h | ⟨⟨key, c⟩, -, h⟩
  · exact untyped_take h
  dsimp only at h
  split at h
  · obtain rfl := Except.error.inj h
    exact ⟨nofun, nofun⟩
  · split at h
    · obtain rfl := Except.error.inj h
      exact ⟨nofun, nofun⟩
    · cases h

/-- A lookup that fails for a type is the source's own failure. -/
theorem exists_of_refused {framing : Framing} {offset : Nat} {e : RegistryError}
    (unknown : (framing.refused offset e).reason = .unknownType) :
    ∃ id, e = .unknownType id ∧ (framing.refused offset e).type = some id := by
  cases e with
  | unknownType id => exact ⟨id, rfl, rfl⟩
  | _ => cases unknown

theorem untyped_checkScheme {framing : Framing} (h : framing.checkScheme e = .error f) :
    Untyped f := by
  unfold Framing.checkScheme at h
  split at h
  · cases h
  · obtain rfl := Except.error.inj h
    exact ⟨nofun, nofun⟩

theorem untyped_locate {α : Type} {c : Cursor} {read : Cursor → Except DecodeFailure (α × Cursor)}
    (hread : ∀ f, read c = .error f → Untyped f) (h : locate c read = .error f) : Untyped f := by
  rcases bind_eq_error.1 h with h | ⟨_, -, h⟩
  · exact hread f h
  · cases h

theorem untyped_readEra {c : Cursor} (h : readEra c = .error f) : Untyped f := by
  rcases bind_eq_error.1 h with h | ⟨⟨first, next⟩, -, h⟩
  · exact untyped_number h
  dsimp only at h
  split at h
  · cases h
  · rcases bind_eq_error.1 h with h | ⟨⟨second, next⟩, -, h⟩
    · exact untyped_number h
    · dsimp only at h
      split at h
      · cases h
      · exact untyped_fail h (by decide)

theorem untyped_extensions {c : Cursor} (h : Extensions.read c = .error f) : Untyped f := by
  rcases bind_eq_error.1 h with h | ⟨⟨era, c⟩, -, h⟩
  · exact untyped_locate (fun _ => untyped_readEra) h
  rcases bind_eq_error.1 h with h | ⟨⟨nonce, c⟩, -, h⟩
  · exact untyped_locate (fun _ => untyped_integer) h
  rcases bind_eq_error.1 h with h | ⟨⟨tip, c⟩, -, h⟩
  · exact untyped_locate (fun _ => untyped_integer) h
  rcases bind_eq_error.1 h with h | ⟨⟨specVersion, c⟩, -, h⟩
  · exact untyped_locate (fun _ => untyped_number) h
  rcases bind_eq_error.1 h with h | ⟨⟨txVersion, c⟩, -, h⟩
  · exact untyped_locate (fun _ => untyped_number) h
  rcases bind_eq_error.1 h with h | ⟨⟨genesis, c⟩, -, h⟩
  · exact untyped_locate (fun _ => untyped_take) h
  rcases bind_eq_error.1 h with h | ⟨⟨block, c⟩, -, h⟩
  · exact untyped_locate (fun _ => untyped_take) h
  dsimp only at h
  split at h
  · cases h
  · exact untyped_trailing h

/-- The type of the calls of a pallet is in the table. -/
theorem known_readCall {start : Nat} {c : Cursor} (h : readCall e l start c = .error f) :
    f.reason ≠ .unknownType := by
  rcases bind_eq_error.1 h with h | ⟨⟨index, c⟩, -, h⟩
  · exact (untyped_number h).2
  dsimp only at h
  split at h
  · next pallet calls selected =>
    obtain ⟨p, hp, hcalls⟩ := Option.bind_eq_some_iff.1 selected
    obtain ⟨t, ht, hpair⟩ := Option.map_eq_some_iff.1 hcalls
    obtain ⟨rfl, rfl⟩ := Prod.mk.inj hpair
    obtain ⟨variants, definition⟩ := e.consistent.callable p (List.mem_of_find?_eq_some hp) t ht
    rcases bind_eq_error.1 h with h | ⟨⟨method, q⟩, -, h⟩
    · exact (known_readValue definition).eq_of_alike.2 f h
    · dsimp only at h
      split at h
      · cases h
      · exact (untyped_trailing h).2
  · cases h

theorem blames_of_readTransaction {payload : Bytes} {scheme : Scheme} {source : MetadataSource}
    (h : readTransaction payload scheme source l = .error f) (unknown : f.reason = .unknownType) :
    ∃ id, source.Blames id ∧ f.type = some id := by
  rcases bind_eq_error.1 h with h | ⟨framing, -, h⟩
  · exact absurd unknown (untyped_framing h).2
  rcases bind_eq_error.1 h with h | ⟨⟨callLength, c⟩, -, h⟩
  · exact absurd unknown (untyped_count h).2
  rcases bind_eq_error.1 h with h | ⟨x, -, h⟩
  · exact absurd unknown (untyped_extensions h).2
  split at h
  · next e asked =>
    obtain rfl := Except.error.inj h
    obtain ⟨id, rfl, htype⟩ := exists_of_refused unknown
    exact ⟨id, .inl ⟨_, _, asked⟩, htype⟩
  · rcases bind_eq_error.1 h with h | ⟨_, -, h⟩
    · exact absurd unknown (untyped_checkScheme h).2
    split at h
    · obtain rfl := Except.error.inj h
      cases unknown
    · rcases bind_eq_error.1 h with h | ⟨call, -, h⟩
      · exact absurd unknown (known_readCall h)
      · cases h

theorem blames_of_readMessage {payload : Bytes} {scheme : Scheme} {source : MetadataSource}
    (h : readMessage payload scheme source = .error f) (unknown : f.reason = .unknownType) :
    ∃ id, source.Blames id ∧ f.type = some id := by
  rcases bind_eq_error.1 h with h | ⟨framing, -, h⟩
  · exact absurd unknown (untyped_framing h).2
  rcases bind_eq_error.1 h with h | ⟨⟨n, c⟩, -, h⟩
  · exact absurd unknown (untyped_count h).2
  rcases bind_eq_error.1 h with h | ⟨⟨m, c⟩, -, h⟩
  · exact absurd unknown (untyped_take h).2
  dsimp only at h
  split at h
  · exact absurd unknown (untyped_trailing h).2
  · split at h
    · next e asked =>
      obtain rfl := Except.error.inj h
      obtain ⟨id, rfl, htype⟩ := exists_of_refused unknown
      exact ⟨id, .inr ⟨_, asked⟩, htype⟩
    · rcases bind_eq_error.1 h with h | ⟨_, -, h⟩
      · exact absurd unknown (untyped_checkScheme h).2
      · cases h

theorem known_readUpdate {payload : Bytes} (h : readUpdate payload = .error f) :
    f.reason ≠ .unknownType := by
  unfold readUpdate at h
  dsimp only at h
  split at h
  · obtain rfl := Except.error.inj h
    exact nofun
  · split at h
    · obtain rfl := Except.error.inj h
      exact nofun
    · cases h

/-- A request fails for a type only where a lookup of its source does, and for the same one. -/
theorem blames_of_decodeRequest {payload : Bytes} {source : MetadataSource}
    (h : decodeRequest payload source l = .error f) (unknown : f.reason = .unknownType) :
    ∃ id, source.Blames id ∧ f.type = some id := by
  rcases bind_eq_error.1 h with h | ⟨prelude, -, h⟩
  · exact absurd unknown (untyped_readPrelude h).2
  · cases hkind : prelude.kind with
    | transaction =>
      rw [hkind] at h
      exact blames_of_readTransaction h unknown
    | message =>
      rw [hkind] at h
      exact blames_of_readMessage h unknown
    | loadMetadata =>
      rw [hkind] at h
      exact absurd unknown (known_readUpdate h)

/-- With metadata that was accepted, no value of one of its types fails because a type does not
exist. Nor does a request, whatever gives it its entries, as long as that does not fail for a
type itself; and where it does, the failure of the request names the type that it named. -/
theorem accepted_tables_resolve :
    (∀ (e : Entry) (l : Limits) (payload : Bytes) (id : TypeId), id.toNat < e.types.size →
      ∀ f, decodeValue e l payload id = .error f → f.reason ≠ .unknownType) ∧
    (∀ source : MetadataSource, source.AsksNoType → ∀ (l : Limits) (payload : Bytes)
      (f : DecodeFailure), decodeRequest payload source l = .error f → f.reason ≠ .unknownType) ∧
    ∀ (source : MetadataSource) (l : Limits) (payload : Bytes) (f : DecodeFailure),
      decodeRequest payload source l = .error f → f.reason = .unknownType →
        ∃ id, source.Blames id ∧ f.type = some id := by
  refine ⟨fun e l payload id known f => known_decodeValue known,
    fun source asks l payload f h unknown => ?_, fun source l payload f => blames_of_decodeRequest⟩
  obtain ⟨id, blames, -⟩ := blames_of_decodeRequest h unknown
  exact asks.not_blames id blames

/-- The sample transaction with a byte behind its call. -/
def longCall : Transaction := { sampleTransaction with call := [0, 0, 5, 0] }

/-- A source that fails for a type whenever it is asked for the entry of a version. -/
def blamingSource : MetadataSource := ⟨fun _ _ => .error (.unknownType 7), sampleRegistry.latest⟩

set_option maxRecDepth 4096 in
/-- A list of bytes that ends too early, read with a type of the table and with one beyond it;
and a transaction whose call has a byte too many, read with a registry and with a source that
fails for a type. -/
theorem list_reading_resolves :
    (0 : TypeId).toNat < listEntry.types.size ∧
    (∀ f, decodeValue listEntry {} [0, 5] 0 = .error f → f.reason ≠ .unknownType) ∧
    decodeValue listEntry {} [0, 5] 2 = .error ⟨.unknownType, 0, some 2⟩ ∧
    (decodeRequest longCall.encode sampleRegistry.source {} = .error ⟨.trailingBytes 1, 39, none⟩ ∧
      DecodeReason.trailingBytes 1 ≠ .unknownType) ∧
    decodeRequest longCall.encode blamingSource {} = .error ⟨.unknownType, 43, some 7⟩ ∧
    ∃ id, blamingSource.Blames id ∧ some 7 = some id := by
  obtain ⟨values, requests, attribution⟩ := accepted_tables_resolve
  have long : decodeRequest longCall.encode sampleRegistry.source {} =
      .error ⟨.trailingBytes 1, 39, none⟩ := rfl
  have blamed : decodeRequest longCall.encode blamingSource {} =
      .error ⟨.unknownType, 43, some 7⟩ := rfl
  exact ⟨by decide, values listEntry {} [0, 5] 0 (by decide), rfl,
    ⟨long, requests sampleRegistry.source sampleRegistry.asksNoType {} _ _ long⟩, blamed,
    attribution blamingSource {} _ _ blamed rfl⟩

end ColdSigner.Review
