import ColdSigner.Registry
import ColdSigner.Vault.AddressBook

/-! A device: what all of its sessions share. -/
namespace ColdSigner

structure Device where
  vault : Vault
  registry : Registry := {}

end ColdSigner
