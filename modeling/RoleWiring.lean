import RoleWiring.Ascent
import RoleWiring.Assignment
import RoleWiring.ClassFile.Attribute
import RoleWiring.ClassFile.Bytes
import RoleWiring.ClassFile.Constant
import RoleWiring.ClassFile.Declared
import RoleWiring.ClassFile.Layout
import RoleWiring.ClassFile.ModifiedUtf8
import RoleWiring.ClassFile.Refusal
import RoleWiring.ClassPath
import RoleWiring.CommandLine.Arguments
import RoleWiring.CommandLine.Run
import RoleWiring.CommandLine.Usage
import RoleWiring.Configuration
import RoleWiring.Declaration
import RoleWiring.Entries
import RoleWiring.Fault
import RoleWiring.FileTree.Change
import RoleWiring.FileTree.Difference
import RoleWiring.FileTree.Node
import RoleWiring.FileTree.OsError
import RoleWiring.FileTree.Walk
import RoleWiring.Implementation
import RoleWiring.Json.Domain
import RoleWiring.Json.Lexer
import RoleWiring.Json.Magnitude
import RoleWiring.Json.Reader
import RoleWiring.Json.Record
import RoleWiring.Json.Value
import RoleWiring.Json.Writer
import RoleWiring.LogDirectory
import RoleWiring.Main
import RoleWiring.Name.Artifact
import RoleWiring.Name.Identifier
import RoleWiring.Name.Qualified
import RoleWiring.Path
import RoleWiring.Proofs.Ascent.Above
import RoleWiring.Proofs.Ascent.BreadthFirst
import RoleWiring.Proofs.Ascent.Direct
import RoleWiring.Proofs.Ascent.Lookups
import RoleWiring.Proofs.Assignment
import RoleWiring.Proofs.Assignment.Spelling
import RoleWiring.Proofs.ClassFile.Bytes
import RoleWiring.Proofs.ClassFile.Declared
import RoleWiring.Proofs.ClassFile.Layout
import RoleWiring.Proofs.ClassFile.ModifiedUtf8
import RoleWiring.Proofs.ClassFile.Outline
import RoleWiring.Proofs.ClassFile.Truncated
import RoleWiring.Proofs.ClassFile.WellFormed
import RoleWiring.Proofs.ClassPath.Agreement
import RoleWiring.Proofs.ClassPath.Listing
import RoleWiring.Proofs.ClassPath.Order
import RoleWiring.Proofs.ClassPath.Reads
import RoleWiring.Proofs.ClassPath.Roots
import RoleWiring.Proofs.CommandLine.Arguments
import RoleWiring.Proofs.CommandLine.Effects
import RoleWiring.Proofs.CommandLine.Emit
import RoleWiring.Proofs.CommandLine.Overrides
import RoleWiring.Proofs.Configuration
import RoleWiring.Proofs.Documents
import RoleWiring.Proofs.Except
import RoleWiring.Proofs.FileTree.Below
import RoleWiring.Proofs.FileTree.Descent
import RoleWiring.Proofs.FileTree.Directories
import RoleWiring.Proofs.FileTree.Root
import RoleWiring.Proofs.FileTree.Write
import RoleWiring.Proofs.FirstOccurrences
import RoleWiring.Proofs.Json.Domain
import RoleWiring.Proofs.Json.RoundTrip
import RoleWiring.Proofs.Name.Artifact
import RoleWiring.Proofs.Name.Inverse
import RoleWiring.Proofs.Path
import RoleWiring.Proofs.RoleIndex.Alone
import RoleWiring.Proofs.RoleIndex.Check
import RoleWiring.Proofs.RoleIndex.Direct
import RoleWiring.Proofs.RoleIndex.Exact
import RoleWiring.Proofs.RoleIndex.Pool
import RoleWiring.Proofs.RoleIndex.Reports
import RoleWiring.Proofs.RoleIndex.Schedule
import RoleWiring.Proofs.Roster
import RoleWiring.Proofs.Scan
import RoleWiring.Proofs.Scan.Resume
import RoleWiring.Proofs.Search
import RoleWiring.Proofs.Search.Order
import RoleWiring.Proofs.Search.Picks
import RoleWiring.Proofs.Search.Roots
import RoleWiring.Proofs.Search.Warnings
import RoleWiring.Proofs.Selection
import RoleWiring.Proofs.Selection.Law
import RoleWiring.Proofs.Session.Asked
import RoleWiring.Proofs.Session.Call
import RoleWiring.Proofs.Session.Race
import RoleWiring.Proofs.Session.Uses
import RoleWiring.Proofs.Session.View
import RoleWiring.Proofs.Text.Utf8
import RoleWiring.Proofs.Text.WhiteSpace
import RoleWiring.Proofs.Wiring
import RoleWiring.RoleIndex
import RoleWiring.Roster
import RoleWiring.Scan
import RoleWiring.Search
import RoleWiring.Selection
import RoleWiring.Session
import RoleWiring.Table
import RoleWiring.Text.Alphabetic
import RoleWiring.Text.Cased
import RoleWiring.Text.Display
import RoleWiring.Text.LowerCase
import RoleWiring.Text.Numeric
import RoleWiring.Text.Ranges
import RoleWiring.Text.Surrogate
import RoleWiring.Text.Utf8
import RoleWiring.Text.WhiteSpace
import RoleWiring.Wiring
