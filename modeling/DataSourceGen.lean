import DataSourceGen.Text.Basic
import DataSourceGen.Text.Blank
import DataSourceGen.Text.Lines
import DataSourceGen.Text.UppercaseTable
import DataSourceGen.Text.HiddenTable
import DataSourceGen.Text.LetterCase
import DataSourceGen.Text.Quoted
import DataSourceGen.Text.Utf8
import DataSourceGen.Name
import DataSourceGen.NameSet
import DataSourceGen.NameSet.Operation
import DataSourceGen.Segment
import DataSourceGen.Log
import DataSourceGen.Query.Basic
import DataSourceGen.Query.Heading
import DataSourceGen.Query.Reading
import DataSourceGen.Query.SelectionSet
import DataSourceGen.Query.Accessor
import DataSourceGen.DataSource.Basic
import DataSourceGen.DataSource.GoSource
import DataSourceGen.Generation
import DataSourceGen.FileTree.Path
import DataSourceGen.FileTree.Basic
import DataSourceGen.FileTree.Content
import DataSourceGen.FileTree.Update
import DataSourceGen.FileTree.Walk
import DataSourceGen.QueryFiles
import DataSourceGen.Json
import DataSourceGen.Json.Reader
import DataSourceGen.Command.Outcome
import DataSourceGen.Command.Generate
import DataSourceGen.Command.Inspect
import DataSourceGen.Command.Arguments
import DataSourceGen.Command.Help
import DataSourceGen.Command.Program
import DataSourceGen.Disk
import DataSourceGen.Main
import DataSourceGen.Proofs.Reading.Reached
import DataSourceGen.Proofs.Segment.RoundTrip
import DataSourceGen.Proofs.Reading.Coherence
import DataSourceGen.Proofs.Reading.Nesting
import DataSourceGen.Query.Lookup
import DataSourceGen.Proofs.Query.Heading
import DataSourceGen.Proofs.NameSet
import DataSourceGen.Proofs.Query.SelectionSet
import DataSourceGen.Proofs.Query.Wrappers
import DataSourceGen.Proofs.Query.Lookup
import DataSourceGen.Proofs.Reading.Ending
import DataSourceGen.Proofs.Reading.Extension
import DataSourceGen.Proofs.Reading.Depth
import DataSourceGen.Proofs.DataSource.Binding
import DataSourceGen.Proofs.Text.Splitting
import DataSourceGen.Proofs.Reading.Characters
import DataSourceGen.Proofs.Text.LetterCase
import DataSourceGen.Proofs.DataSource.Spliced
import DataSourceGen.Proofs.DataSource.Unbroken
import DataSourceGen.Proofs.DataSource.Blocks
import DataSourceGen.Proofs.DataSource.Faithful
import DataSourceGen.Proofs.Text.Encoding
import DataSourceGen.Proofs.FileTree.Landmarks
import DataSourceGen.Proofs.Command.Verdicts
import DataSourceGen.Proofs.FileTree.Directories
import DataSourceGen.Proofs.Command.Batch
import DataSourceGen.Proofs.Reading.Identifiers
import DataSourceGen.Proofs.DataSource.Members
import DataSourceGen.Proofs.DataSource.Assignments
import DataSourceGen.Proofs.DataSource.EdgesIndex
import DataSourceGen.Proofs.Reading.Sections
import DataSourceGen.Proofs.Query.Acceptance
import DataSourceGen.Proofs.FileTree.Paths
import DataSourceGen.Proofs.FileTree.Below
import DataSourceGen.Proofs.Command.FileNames
import DataSourceGen.Proofs.Query.Rearrangement
import DataSourceGen.Proofs.FileTree.Canonical
import DataSourceGen.Proofs.FileTree.Walk
import DataSourceGen.Proofs.FileTree.Listing
import DataSourceGen.Proofs.FileTree.Descent
import DataSourceGen.Proofs.QueryFiles
import DataSourceGen.Proofs.Command.Printing
import DataSourceGen.Query.RootCall
import DataSourceGen.Proofs.Query.RootCall
import DataSourceGen.Proofs.Json.RoundTrip
import DataSourceGen.Proofs.Reading.Insertions
import DataSourceGen.Proofs.Command.Inspection
import DataSourceGen.Proofs.DataSource.LastPath
import DataSourceGen.Proofs.Query.Collisions
import DataSourceGen.Proofs.DataSource.LoopIndex
import DataSourceGen.Proofs.Reading.Noise
import DataSourceGen.Proofs.Segment.Unrelated
import DataSourceGen.Proofs.Text.Spacing
import DataSourceGen.Proofs.Query.Components
import DataSourceGen.Proofs.FileTree.Content
import DataSourceGen.Proofs.Log
import DataSourceGen.Proofs.Reading.Accounts
import DataSourceGen.Proofs.NameSet.History
