import BlueprintPackages.Address
import BlueprintPackages.Loader
import BlueprintPackages.Proofs.Address.RoundTrip
import BlueprintPackages.Proofs.Source.Preorder
import BlueprintPackages.Proofs.Tree.Shadowing
import BlueprintPackages.Proofs.Source.Reading
import BlueprintPackages.Proofs.Address.Soundness
import BlueprintPackages.Proofs.Tree.Subtree
import BlueprintPackages.Proofs.Address.Independence
import BlueprintPackages.Proofs.Files.Entries
import BlueprintPackages.Proofs.Files.Walking
import BlueprintPackages.Proofs.Source.Relisting
import BlueprintPackages.Proofs.Source.Directories
import BlueprintPackages.Proofs.Source.Faults
import BlueprintPackages.Proofs.Source.FirstFault
import BlueprintPackages.Proofs.Files.Resemblance
import BlueprintPackages.Proofs.Files.Editing
import BlueprintPackages.Proofs.Json.Retyping
import BlueprintPackages.Proofs.Source.Retyping
import BlueprintPackages.Proofs.Source.Rereading
import BlueprintPackages.Proofs.Tree.TypeTags
import BlueprintPackages.Proofs.Tree.Respelling
import BlueprintPackages.Proofs.Tree.FilingOrder
import BlueprintPackages.Proofs.Address.Composition
import BlueprintPackages.Proofs.Address.Anchors
import BlueprintPackages.Proofs.Address.SystemToken
import BlueprintPackages.Proofs.Address.AliasExpansion
import BlueprintPackages.Proofs.Address.SystemLink
import BlueprintPackages.Proofs.Definition.Grammar
import BlueprintPackages.Proofs.Definition.Equality
import BlueprintPackages.Proofs.Tree.OwnMetadata
import BlueprintPackages.Proofs.Tree.OwnVersion
import BlueprintPackages.Proofs.Tree.RegistryExtension
import BlueprintPackages.Proofs.Json.Metadata
import BlueprintPackages.Proofs.Source.Ignored
import BlueprintPackages.Proofs.Tree.Climbing
import BlueprintPackages.Proofs.Address.GivenName
