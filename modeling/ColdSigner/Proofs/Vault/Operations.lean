import ColdSigner.Proofs.Table
import ColdSigner.Vault.AddressBook

/-! Everything a vault can be asked.

`run` is one operation with its answer, through the definitions of the vault; they say
what becomes of a vault only where they succeed. A vault that is changed in place has
no such choice, since what was written before a failure stays written. `perform` does
the same operations in place, one write after the other, and `perform_eq_run` says that
this makes no difference: everything is checked before anything is written. -/
namespace ColdSigner.Vault

inductive Operation where
  | authenticate (proof : Bytes)
  | importSeed (name : String) (entropy : Bytes)
  | importPhrase (name phrase : String)
  | seedByName (name : String)
  | seedNames
  | derive (h : SeedHandle) (path : String) (scheme : Scheme)
  | sign (key : DerivedKey) (password : Option String) (proof message : Bytes)
  | exportEntropy (h : SeedHandle) (proof : Bytes)
  | exportPhrase (h : SeedHandle) (proof : Bytes)
  | delete (h : SeedHandle)
  | createAddress (h : SeedHandle) (path : String) (network : NetworkId) (specs : NetworkSpecs)
  | populateDefaults (h : SeedHandle) (networks : List Entry) (templates : List String)
  | removeAddress (key : PublicKey) (network : NetworkId)
  | addressesOf (h : SeedHandle)
  | lookup (key : PublicKey)
  | lookupOn (key : PublicKey) (network : NetworkId)
  | exportAddress (key : PublicKey) (network : NetworkId) (specs : NetworkSpecs)
  | suggestNext (h : SeedHandle) (path : String) (network : NetworkId)

/-- What a vault answers. -/
inductive Answer where
  | done
  | seed (h : SeedHandle)
  | seeds (names : List (SeedHandle × String))
  | derived (key : DerivedKey)
  | signature (signature : Signature)
  | entropy (entropy : Bytes)
  | text (text : String)
  | key (key : PublicKey)
  | keys (keys : List PublicKey)
  | addresses (addresses : List (PublicKey × AddressDetails))
  | details (details : Option AddressDetails)

namespace Operation

/-- Whether a seed is to be kept. -/
def isImport : Operation → Bool
  | .importSeed .. | .importPhrase .. => true
  | _ => false

/-- Whether several addresses are to be created, of which some may be there already when
another fails. -/
def isPopulate : Operation → Bool
  | .populateDefaults .. => true
  | _ => false

end Operation

/-! ### Operations as a whole -/

/-- An operation that only reads. -/
def reading {α β : Type} (v : Vault) (answer : α → β) (x : Except VaultError α) :
    Except VaultError β × Vault :=
  (x.map answer, v)

/-- An operation that leads to another vault where it succeeds. -/
def writing {α β : Type} (v : Vault) (answer : α → β) :
    Except VaultError (α × Vault) → Except VaultError β × Vault
  | .ok (x, v') => (.ok (answer x), v')
  | .error f => (.error f, v)

/-- One operation: its answer, and the vault after it. -/
def run (v : Vault) : Operation → Except VaultError Answer × Vault
  | .authenticate proof => v.reading (fun _ => .done) (v.authenticate proof)
  | .importSeed name entropy => v.writing .seed (v.importSeed name entropy)
  | .importPhrase name phrase => v.writing .seed (v.importPhrase name phrase)
  | .seedByName name => v.reading .seed (v.seedByName name)
  | .seedNames => v.reading .seeds (.ok v.seedNames)
  | .derive h path scheme => v.reading .derived (v.derive h path scheme)
  | .sign key password proof message => v.reading .signature (v.sign key password proof message)
  | .exportEntropy h proof => v.reading .entropy (v.exportEntropy h proof)
  | .exportPhrase h proof => v.reading .text (v.exportPhrase h proof)
  | .delete h => v.writing (fun _ => .done) ((v.delete h).map ((), ·))
  | .createAddress h path network specs => v.writing .key (v.createAddress h path network specs)
  | .populateDefaults h networks templates =>
    let (v, created) := v.populateDefaults h networks templates
    (created.map .keys, v)
  | .removeAddress key network => v.writing (fun _ => .done) ((v.removeAddress key network).map ((), ·))
  | .addressesOf h => v.reading .addresses (v.addressesOf h)
  | .lookup key => v.reading .details (.ok (v.lookup key))
  | .lookupOn key network => v.reading .details (.ok (v.lookupOn key network))
  | .exportAddress key network specs => v.reading .text (v.exportAddress key network specs)
  | .suggestNext h path network => v.reading .text (v.suggestNext h path network)

/-- The vault after operations in turn. -/
def after (v : Vault) (ops : List Operation) : Vault := ops.foldl (fun v op => (v.run op).2) v

/-! ### Operations in place -/

/-- A program that changes a vault in place, and may fail on the way. -/
abbrev InPlace := ExceptT VaultError (StateM Vault)

namespace InPlace

/-- What may fail without a change. -/
def attempt {α : Type} (x : Except VaultError α) : InPlace α := ExceptT.mk (pure x)

/-- The number is given away before the seed is kept. -/
def importSeed (name : String) (entropy : Bytes) : InPlace SeedHandle := do
  if isBlankName name then throw .invalidName
  else if entropy.length ∉ SecretKey.entropyLengths then throw (.key .invalidEntropy)
  else
    let v ← get
    if v.seeds.values.any (·.name == name) then throw (.duplicateName name)
    else if v.next.toNat + 1 < UInt32.size then
      let h : SeedHandle := ⟨v.next⟩
      modify fun v => { v with next := v.next + 1 }
      modify fun v => { v with seeds := v.seeds.insert h ⟨name, entropy⟩ }
      return h
    else throw .overflow

def importPhrase (name phrase : String) : InPlace SeedHandle := do
  let entropy ← attempt ((Phrase.parse phrase).mapError fun _ => .invalidPhrase)
  importSeed name entropy

/-- The seed goes first, then its addresses. -/
def delete (h : SeedHandle) : InPlace Unit := do
  let v ← get
  let _ ← attempt (v.seed h)
  modify fun v => { v with seeds := v.seeds.erase h }
  modify fun v => { v with addresses := v.addresses.filter fun _ d => d.seed ≠ h }

def createAddress (h : SeedHandle) (path : String) (network : NetworkId) (specs : NetworkSpecs) :
    InPlace PublicKey := do
  let p ← attempt (parsePath path)
  let v ← get
  let k ← attempt (v.secretKey h p specs.scheme)
  let s ← attempt (v.seed h)
  let key := k.publicKey
  match v.lookup key with
  | some d =>
    if d.seed ≠ h ∨ d.path ≠ p.path then throw (.keyCollision d.seedName)
    else
      unless d.networks.contains network do
        modify fun v => v.setAddress key { d with networks := d.networks ++ [network] }
      return key
  | none =>
    modify fun v => v.setAddress key ⟨h, s.name, p.path, p.hasPassword, [network]⟩
    return key

/-- The network goes first, and after the last one its key. -/
def removeAddress (key : PublicKey) (network : NetworkId) : InPlace Unit := do
  let v ← get
  match v.lookup key with
  | none => throw .unknownAddress
  | some d =>
    let networks := d.networks.filter (· ≠ network)
    modify fun v => v.setAddress key { d with networks }
    if networks.isEmpty then modify fun v => { v with addresses := v.addresses.erase key }

end InPlace

/-- One operation in place. What changes nothing, or reports what it left out, is as
it was. -/
def perform : Operation → InPlace Answer
  | .importSeed name entropy => .seed <$> InPlace.importSeed name entropy
  | .importPhrase name phrase => .seed <$> InPlace.importPhrase name phrase
  | .delete h => (fun _ => .done) <$> InPlace.delete h
  | .createAddress h path network specs => .key <$> InPlace.createAddress h path network specs
  | .removeAddress key network => (fun _ => .done) <$> InPlace.removeAddress key network
  | op => fun v => v.run op

namespace InPlace

variable {α : Type} (v : Vault) (h : SeedHandle) (key : PublicKey) (network : NetworkId)

theorem get_bind (f : Vault → InPlace α) : (get >>= f) v = f v v := rfl

theorem attempt_ok_bind {β : Type} (a : β) (f : β → InPlace α) : (attempt (.ok a) >>= f) v = f a v :=
  rfl

theorem importSeed_eq (name : String) (entropy : Bytes) :
    importSeed name entropy v = v.writing id (v.importSeed name entropy) := by
  unfold importSeed Vault.importSeed
  split
  · rfl
  · split
    · rfl
    · rw [get_bind]
      split
      · rfl
      · split <;> rfl

theorem importPhrase_eq (name phrase : String) :
    importPhrase name phrase v = v.writing id (v.importPhrase name phrase) := by
  unfold importPhrase Vault.importPhrase
  cases Phrase.parse phrase with
  | ok entropy => exact importSeed_eq v name entropy
  | error => rfl

theorem delete_eq : delete h v = v.writing id ((v.delete h).map ((), ·)) := by
  rw [delete, Vault.delete, get_bind]
  cases v.seed h <;> rfl

theorem removeAddress_eq :
    removeAddress key network v = v.writing id ((v.removeAddress key network).map ((), ·)) := by
  rw [removeAddress, Vault.removeAddress, get_bind]
  cases v.lookup key with
  | none => rfl
  | some d =>
    dsimp only
    split
    · -- the networks that were written are dropped with their key
      refine Prod.ext rfl ?_
      exact congrArg (fun addresses => { v with addresses }) (Table.erase_insert ..)
    · rfl

theorem createAddress_eq (path : String) (specs : NetworkSpecs) :
    createAddress h path network specs v =
      v.writing id (v.createAddress h path network specs) := by
  unfold createAddress Vault.createAddress
  cases parsePath path with
  | error => rfl
  | ok p =>
    rw [attempt_ok_bind, get_bind]
    show _ = v.writing id (v.secretKey h p specs.scheme >>= _)
    cases v.secretKey h p specs.scheme with
    | error => rfl
    | ok k =>
      rw [attempt_ok_bind]
      show _ = v.writing id (v.seed h >>= _)
      cases v.seed h with
      | error => rfl
      | ok s =>
        rw [attempt_ok_bind]
        dsimp only
        cases v.lookup k.publicKey with
        | none => rfl
        | some d =>
          dsimp only
          by_cases other : d.seed ≠ h ∨ d.path ≠ p.path
          · simp only [if_pos other]
            rfl
          · simp only [if_neg other, List.contains_iff_mem]
            by_cases enabled : network ∈ d.networks
            · simp only [if_pos enabled]
              rfl
            · simp only [if_neg enabled]
              rfl

theorem map_eq_writing {β : Type} {x : InPlace α} {y : Except VaultError (α × Vault)}
    (h : x v = v.writing id y) (f : α → β) : (f <$> x) v = v.writing f y := by
  show (ExceptT.map f x) v = _
  cases y <;> simp only [ExceptT.map, ExceptT.mk, bind, StateT.bind, h, writing] <;> rfl

end InPlace

theorem perform_eq_run (op : Operation) (v : Vault) : perform op v = v.run op := by
  cases op with
  | importSeed => exact InPlace.map_eq_writing v (InPlace.importSeed_eq ..) _
  | importPhrase => exact InPlace.map_eq_writing v (InPlace.importPhrase_eq ..) _
  | delete => exact InPlace.map_eq_writing v (InPlace.delete_eq ..) _
  | createAddress => exact InPlace.map_eq_writing v (InPlace.createAddress_eq ..) _
  | removeAddress => exact InPlace.map_eq_writing v (InPlace.removeAddress_eq ..) _
  | _ => rfl

/-- An operation that fails changes nothing, unless it creates several addresses. -/
theorem run_of_error {v v' : Vault} {op : Operation} {f : VaultError} (single : op.isPopulate = false)
    (h : v.run op = (.error f, v')) : v' = v := by
  have hwriting {α : Type} {answer : α → Answer} {x : Except VaultError (α × Vault)}
      (h : v.writing answer x = (.error f, v')) : v' = v := by
    cases x with
    | ok => cases h
    | error => exact (Prod.mk.inj h).2.symm
  cases op with
  | importSeed | importPhrase | delete | createAddress | removeAddress => exact hwriting h
  | populateDefaults => cases single
  | _ => exact (Prod.mk.inj h).2.symm

end ColdSigner.Vault
