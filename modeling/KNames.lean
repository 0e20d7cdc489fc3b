import KNames.Diagnostic
import KNames.Index.Change
import KNames.Index.Registry
import KNames.Json.Reader
import KNames.Proofs.Binding.Agreement
import KNames.Proofs.Binding.Declarations
import KNames.Proofs.Binding.Duplicates
import KNames.Proofs.Binding.EmptyName
import KNames.Proofs.Binding.Explanation
import KNames.Proofs.Binding.Growth
import KNames.Proofs.Binding.Isolation
import KNames.Proofs.Binding.Labels
import KNames.Proofs.Binding.Ownership
import KNames.Proofs.Binding.Policies
import KNames.Proofs.Binding.Productions
import KNames.Proofs.Binding.Repeats
import KNames.Proofs.Binding.Searches
import KNames.Proofs.Binding.Staleness
import KNames.Proofs.Binding.Variables
import KNames.Proofs.Candidates
import KNames.Proofs.Decoding.Record
import KNames.Proofs.Frame
import KNames.Proofs.History
import KNames.Proofs.Json.Members
import KNames.Proofs.Json.Scalars
import KNames.Proofs.Json.Text
import KNames.Proofs.Outcome
import KNames.Proofs.RequirePath
import KNames.Proofs.Settings.Fields
import KNames.Proofs.Settings.Reading
import KNames.Proofs.Settings.RoundTrip
import KNames.Proofs.Storage.Disk
import KNames.Proofs.Text.Bytes
import KNames.Proofs.Tree.Layout
import KNames.Proofs.Tree.Outline
import KNames.Proofs.Tree.Position
import KNames.Proofs.Tree.Snapshot
import KNames.Proofs.Wire.Primitive
import KNames.Proofs.Wire.Types
import KNames.Resolution
import KNames.Settings.File
import KNames.Tree.Script
import KNames.Wire.Types
