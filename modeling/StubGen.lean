import StubGen.Main
import StubGen.TypeRef.Order
import StubGen.Proofs.Hierarchy
import StubGen.Proofs.Inheritance.Search
import StubGen.Proofs.Collector
import StubGen.Proofs.Coverage
import StubGen.Proofs.Inheritance.Validation
import StubGen.Proofs.Resolution
import StubGen.Proofs.Closure
import StubGen.Proofs.Scoping
import StubGen.Proofs.Composition
import StubGen.Proofs.Capture
import StubGen.Proofs.Precedence
import StubGen.Proofs.Overriding
import StubGen.Proofs.Access
import StubGen.Proofs.Disk
import StubGen.Proofs.FilePath
import StubGen.Proofs.ScopedFile
import StubGen.Proofs.Rollback
import StubGen.Proofs.Disk.Changes
import StubGen.Proofs.Disk.Creation
import StubGen.Proofs.Writing
import StubGen.Proofs.Batch
import StubGen.Proofs.Disk.Discarding
import StubGen.Proofs.Disk.Failure
import StubGen.Proofs.Disk.Pruning
import StubGen.Proofs.Disk.Lifecycle
import StubGen.Proofs.Tar.EntryName
import StubGen.Proofs.Tar.Reading
import StubGen.Proofs.Tar.Calls
import StubGen.Proofs.Packaging
import StubGen.Proofs.Renaming.Registry
import StubGen.Proofs.Renaming.Resolution
import StubGen.Proofs.Renaming.Text
import StubGen.Proofs.OfferOrder
import StubGen.Proofs.FixedPoint
import StubGen.Proofs.LastBinding
import StubGen.Proofs.Render.Alike
import StubGen.Proofs.Locality
import StubGen.Proofs.Hierarchy.Superclasses
import StubGen.Proofs.Provenance
import StubGen.Proofs.Signature
import StubGen.Proofs.BinaryName
import StubGen.Proofs.Render.Naming
import StubGen.Proofs.Render.Spelling
import StubGen.Proofs.Render.Reading
import StubGen.Proofs.Escape
import StubGen.Proofs.BinaryName.Grammar
import StubGen.Proofs.Registry
import StubGen.Proofs.Forwarding
import StubGen.Proofs.Classpath
import StubGen.Proofs.FilePath.Extension
import StubGen.Proofs.Placement
import StubGen.Proofs.BinaryName.Levels
import StubGen.Proofs.DefaultValue
import StubGen.Proofs.Metadata.Shorthand
import StubGen.Proofs.Settings
import StubGen.Proofs.Program
