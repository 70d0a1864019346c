import ProductTemplates.Bundle
import ProductTemplates.Cache
import ProductTemplates.CommandLine
import ProductTemplates.Config.Store
import ProductTemplates.Descriptor.Reading
import ProductTemplates.Descriptor.Writing
import ProductTemplates.Expansion
import ProductTemplates.Json
import ProductTemplates.Json.Reader
import ProductTemplates.Main
import ProductTemplates.OverrideSet
import ProductTemplates.Placeholder
import ProductTemplates.Product
import ProductTemplates.Proofs.Application
import ProductTemplates.Proofs.Bundle.Carrying
import ProductTemplates.Proofs.Bundle.FlatCatalogue
import ProductTemplates.Proofs.Bundle.Limit
import ProductTemplates.Proofs.Bundle.Pruning
import ProductTemplates.Proofs.Bundle.Reordering
import ProductTemplates.Proofs.Bundle.Repetition
import ProductTemplates.Proofs.Bundle.Shape
import ProductTemplates.Proofs.Bundle.Siblings
import ProductTemplates.Proofs.Cache.Folder
import ProductTemplates.Proofs.Cache.Keyed
import ProductTemplates.Proofs.Cache.Record
import ProductTemplates.Proofs.Config.Excerpt
import ProductTemplates.Proofs.Config.RoundTrip
import ProductTemplates.Proofs.Config.Storing
import ProductTemplates.Proofs.Decimal.Notation
import ProductTemplates.Proofs.Descriptor.Flattening
import ProductTemplates.Proofs.Descriptor.Json
import ProductTemplates.Proofs.Descriptor.Loading
import ProductTemplates.Proofs.Descriptor.Nesting
import ProductTemplates.Proofs.Descriptor.RoundTrip
import ProductTemplates.Proofs.Dictionary
import ProductTemplates.Proofs.Digest
import ProductTemplates.Proofs.Document.Nesting
import ProductTemplates.Proofs.Document.Record
import ProductTemplates.Proofs.Document.Writing
import ProductTemplates.Proofs.Expansion.Coverage
import ProductTemplates.Proofs.Expansion.Passes
import ProductTemplates.Proofs.Expansion.Placement
import ProductTemplates.Proofs.Expansion.Preorder
import ProductTemplates.Proofs.FileTree
import ProductTemplates.Proofs.FileTree.Changing
import ProductTemplates.Proofs.FileTree.Making
import ProductTemplates.Proofs.FileTree.Moving
import ProductTemplates.Proofs.FileTree.Walking
import ProductTemplates.Proofs.Json.Nesting
import ProductTemplates.Proofs.Json.Number
import ProductTemplates.Proofs.Json.Reader
import ProductTemplates.Proofs.Json.Token
import ProductTemplates.Proofs.OverrideSet
import ProductTemplates.Proofs.OverrideSet.History
import ProductTemplates.Proofs.Placeholder
import ProductTemplates.Proofs.Placeholder.Occurrence
import ProductTemplates.Proofs.Placeholder.Stages
import ProductTemplates.Proofs.Product.Blocking
import ProductTemplates.Proofs.Product.Caching
import ProductTemplates.Proofs.Product.Canonical
import ProductTemplates.Proofs.Product.Content
import ProductTemplates.Proofs.Product.Encoding
import ProductTemplates.Proofs.Product.Storing
import ProductTemplates.Proofs.Product.Tracking
import ProductTemplates.Proofs.Product.Visiting
import ProductTemplates.Proofs.Resolution.CallSite
import ProductTemplates.Proofs.Resolution.Depth
import ProductTemplates.Proofs.Resolution.Leftover
import ProductTemplates.Proofs.Resolution.Limit
import ProductTemplates.Proofs.Resolution.Merging
import ProductTemplates.Proofs.Resolution.Reach
import ProductTemplates.Proofs.Resolution.Refilling
import ProductTemplates.Proofs.Resolution.Surfacing
import ProductTemplates.Proofs.Resolution.Walk
import ProductTemplates.Proofs.Text.Excerpt
import ProductTemplates.Proofs.Toml.Node
import ProductTemplates.Proofs.Toml.Number
import ProductTemplates.Proofs.Toml.Place
import ProductTemplates.Proofs.Toml.Reader
import ProductTemplates.Resolution
import ProductTemplates.Toml.Reader
import ProductTemplates.Toml.Writing
import ProductTemplates.Yaml.Reader
import ProductTemplates.Yaml.Writing
