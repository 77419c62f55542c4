import ColdSigner.Bytes.Lemmas
import ColdSigner.Host
import ColdSigner.Main
import ColdSigner.Proofs.Table
import ColdSigner.Proofs.Review.Coverage
import ColdSigner.Proofs.Review.Disclosure
import ColdSigner.Proofs.Review.SingleReading
import ColdSigner.Proofs.Session.Authorization
import ColdSigner.Proofs.Metadata.Consistency
import ColdSigner.Proofs.Schema.ShortestValues
import ColdSigner.Proofs.Review.ValueCards
import ColdSigner.Proofs.Review.KnownTypes
import ColdSigner.Proofs.Review.Exactness
import ColdSigner.Proofs.Review.LengthCheck
import ColdSigner.Proofs.Review.ExactFraming
import ColdSigner.Proofs.Session.Engine
import ColdSigner.Proofs.Session.Consistency
import ColdSigner.Proofs.Wire.AnyOrder
import ColdSigner.Proofs.Key.Addresses
import ColdSigner.Proofs.Key.Derivation
import ColdSigner.Proofs.Key.PathForm
import ColdSigner.Proofs.Key.PathPatterns
import ColdSigner.Proofs.Key.DistinctPaths
import ColdSigner.Proofs.Key.NextIndex
import ColdSigner.Proofs.Review.WrappedMessages
import ColdSigner.Proofs.Review.ShownMessages
import ColdSigner.Proofs.Review.LargerLimits
import ColdSigner.Proofs.Review.Locality
import ColdSigner.Proofs.Review.UnknownIndex
import ColdSigner.Proofs.Text.Amounts
import ColdSigner.Proofs.Vault.Soundness
import ColdSigner.Proofs.Session.Reached
import ColdSigner.Proofs.Vault.Signing
import ColdSigner.Proofs.Session.Authentication
import ColdSigner.Proofs.Metadata.Blobs
import ColdSigner.Proofs.Session.Prompts
import ColdSigner.Proofs.Session.Secrecy
import ColdSigner.Proofs.Phrase.Reading
import ColdSigner.Proofs.Vault.Defaults
import ColdSigner.Proofs.Session.Confirmation
import ColdSigner.Proofs.Registry
import ColdSigner.Proofs.Vault.Deletion
import ColdSigner.Proofs.Host
import ColdSigner.Proofs.Vault.Enablement
import ColdSigner.Proofs.Wire.Checksum
import ColdSigner.Proofs.Wire.Conflicts
import ColdSigner.Proofs.Wire.Collecting
import ColdSigner.Proofs.Wire.Corruption
import ColdSigner.Proofs.Wire.Counting
import ColdSigner.Proofs.Session.Scanning
import ColdSigner.Proofs.Session.Digests
import ColdSigner.Proofs.CommandLine.Signing
import ColdSigner.Proofs.Access.Requests
