import CodeAtlas.Main
import CodeAtlas.Navigation
import CodeAtlas.Proofs.Forest.Listing
import CodeAtlas.Proofs.Forest.Nesting
import CodeAtlas.Proofs.Forest.Assembly
import CodeAtlas.Proofs.Registry.History
import CodeAtlas.Proofs.Forest.Slots
import CodeAtlas.Proofs.Forest.Visiting
import CodeAtlas.Proofs.Registry.Additive
import CodeAtlas.Proofs.Query.Sharing
import CodeAtlas.Proofs.Scan.Counters
import CodeAtlas.Proofs.Structure.Faults
import CodeAtlas.Proofs.Scan.Isolation
import CodeAtlas.Proofs.Scan.Selection
import CodeAtlas.Proofs.Structure.Grammars
import CodeAtlas.Proofs.Report.Rows
import CodeAtlas.Proofs.Json.Lexing
import CodeAtlas.Proofs.Json.RoundTrip
import CodeAtlas.Proofs.Disk.Writing
import CodeAtlas.Proofs.Report.RoundTrip
import CodeAtlas.Proofs.Text.Collapsing
import CodeAtlas.Proofs.Text.TypeText
import CodeAtlas.Proofs.Structure.References
import CodeAtlas.Proofs.Config.Consistency
import CodeAtlas.Proofs.Scan.Options
import CodeAtlas.Proofs.Scan.Language
import CodeAtlas.Proofs.Profile.Builtin
import CodeAtlas.Proofs.Profile.Checking
import CodeAtlas.Proofs.Disk.Keeping
import CodeAtlas.Proofs.CommandLine.Scanning
import CodeAtlas.Proofs.Report.QualifiedNames
import CodeAtlas.Proofs.Tree.Ranges
import CodeAtlas.Proofs.Tree.Repairs
import CodeAtlas.Proofs.Query.Captured
import CodeAtlas.Proofs.Navigation.Documentation
import CodeAtlas.Proofs.Navigation.Innermost
import CodeAtlas.Proofs.Navigation.Widening
import CodeAtlas.Proofs.Query.Counting
import CodeAtlas.Proofs.Registry.LocalKinds
import CodeAtlas.Proofs.Navigation.ReturnTypes
import CodeAtlas.Proofs.Report.Outlines
import CodeAtlas.Proofs.Text.BaseWords
