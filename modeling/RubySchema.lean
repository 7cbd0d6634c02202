import RubySchema.Archive.Zip
import RubySchema.Command.Run
import RubySchema.Generation.Output
import RubySchema.Main
import RubySchema.Proofs.Example.Ancestors
import RubySchema.Proofs.Example.Showing
import RubySchema.Proofs.Generation.Agreement
import RubySchema.Proofs.Generation.Cycles
import RubySchema.Proofs.Generation.Declarations
import RubySchema.Proofs.Generation.Documents
import RubySchema.Proofs.Generation.Order
import RubySchema.Proofs.Generation.Reordering
import RubySchema.Proofs.Generation.Run
import RubySchema.Proofs.Generation.Script
import RubySchema.Proofs.Generation.Stages
import RubySchema.Proofs.Generation.Steps
import RubySchema.Proofs.Generation.Success
import RubySchema.Proofs.Registry.Names
import RubySchema.Proofs.Registry.Places
import RubySchema.Proofs.Table
import RubySchema.Schema.File
import RubySchema.Settings.Validation
import RubySchema.Proofs.Schema.Written
import RubySchema.Proofs.Registry.FilePaths
import RubySchema.Proofs.Generation.Filing
import RubySchema.Proofs.Generation.Paths
import RubySchema.Proofs.Example.Current
import RubySchema.Proofs.Example.Room
import RubySchema.Proofs.Generation.Current
import RubySchema.Proofs.Generation.Deprecation
import RubySchema.Proofs.Generation.References
import RubySchema.Proofs.Generation.Coherence
import RubySchema.Proofs.Notation
import RubySchema.Proofs.Registry.Calls
import RubySchema.Proofs.Generation.Interfaces
import RubySchema.Proofs.Generation.Comments
import RubySchema.Proofs.Generation.Descriptions
import RubySchema.Proofs.Generation.Defaults
import RubySchema.Proofs.Generation.Containment
import RubySchema.Proofs.Generation.Citations
import RubySchema.Proofs.Schema.Chains
import RubySchema.Proofs.Generation.Manifest
import RubySchema.Proofs.Generation.Regeneration
import RubySchema.Proofs.Command.Listing
import RubySchema.Proofs.Registry.Classification
import RubySchema.Proofs.Schema.Wrappers
import RubySchema.Proofs.Example.Sentinels
import RubySchema.Proofs.Generation.Ownership
import RubySchema.Proofs.Generation.Sections
import RubySchema.Proofs.Generation.Matching
import RubySchema.Proofs.Generation.Recording
import RubySchema.Proofs.Generation.Queries
import RubySchema.Proofs.Naming.Words
import RubySchema.Proofs.Registry.Capitals
import RubySchema.Proofs.Numbers
import RubySchema.Proofs.Generation.Levels
