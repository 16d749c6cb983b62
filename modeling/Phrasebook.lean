import Phrasebook.CallSite
import Phrasebook.Collection
import Phrasebook.CommandLine
import Phrasebook.Declared
import Phrasebook.Decimal.Shortest
import Phrasebook.Dictionary
import Phrasebook.Disk.Walk
import Phrasebook.Entity.Normal
import Phrasebook.Glob.Match
import Phrasebook.Glob.Pattern
import Phrasebook.Harvest
import Phrasebook.Include.Expansion
import Phrasebook.Json.Printer
import Phrasebook.Json.Reader
import Phrasebook.Log
import Phrasebook.Main
import Phrasebook.Path
import Phrasebook.Proofs.Dictionary
import Phrasebook.Proofs.Sorting
import Phrasebook.Proofs.Table.Listing
import Phrasebook.Proofs.Text.Escaping
import Phrasebook.Proofs.Text.Trimming
import Phrasebook.Settings
import Phrasebook.Summary
import Phrasebook.Survey
import Phrasebook.Table.Store
import Phrasebook.Proofs.Table.Statements
import Phrasebook.Proofs.CallSite.Grammar
import Phrasebook.Proofs.CallSite.Scanning
import Phrasebook.Proofs.Entity.Key
import Phrasebook.Proofs.Harvest
import Phrasebook.Proofs.Entity.Normal
import Phrasebook.Proofs.Table.Harvested
import Phrasebook.Proofs.Json.Members
import Phrasebook.Proofs.Json.Printing
import Phrasebook.Proofs.Table.Document
import Phrasebook.Proofs.Table.Rereading
import Phrasebook.Proofs.CallSite.Embedding
import Phrasebook.Proofs.Disk.Resolve
import Phrasebook.Proofs.Include.Coverage
import Phrasebook.Proofs.Include.Descent
import Phrasebook.Proofs.Survey.Findings
import Phrasebook.Proofs.Disk.Ways
import Phrasebook.Proofs.Disk.Listing
import Phrasebook.Proofs.Disk.Walk
import Phrasebook.Proofs.Disk.Growth
import Phrasebook.Proofs.Disk.Footprint
import Phrasebook.Proofs.Table.Storing
import Phrasebook.Proofs.Collection.Modules
import Phrasebook.Proofs.Collection.Report
import Phrasebook.Proofs.Include.Agreement
import Phrasebook.Proofs.Survey.Agreement
import Phrasebook.Proofs.Survey.Outside
import Phrasebook.Proofs.Collection.Places
import Phrasebook.Proofs.Collection.Again
import Phrasebook.Proofs.Collection.Footprint
import Phrasebook.Proofs.Survey.Overwriting
import Phrasebook.Proofs.Disk.Trails
import Phrasebook.Proofs.Disk.Twins
import Phrasebook.Proofs.Table.Twins
import Phrasebook.Proofs.Collection.Restriction
import Phrasebook.Proofs.Survey.Beside
import Phrasebook.Proofs.Collection.Beside
import Phrasebook.Proofs.Path.Relative
import Phrasebook.Proofs.Survey.Ignoring
import Phrasebook.Proofs.Collection.Ignoring
import Phrasebook.Proofs.Survey.Hiding
import Phrasebook.Proofs.Collection.Hiding
import Phrasebook.Proofs.Disk.Attempts
import Phrasebook.Proofs.Table.Retrying
import Phrasebook.Proofs.Survey.Keys
import Phrasebook.Proofs.Table.Entries
import Phrasebook.Proofs.Collection.Entries
import Phrasebook.Proofs.Text.Backslashes
import Phrasebook.Proofs.Entity.Value
import Phrasebook.Proofs.Table.Comments
import Phrasebook.Proofs.CallSite.ThirdArgument
import Phrasebook.Proofs.Table.Meaning
import Phrasebook.Proofs.Text.ByteOrder
import Phrasebook.Proofs.Entity.Merging
import Phrasebook.Proofs.Entity.Order
import Phrasebook.Proofs.Entity.History
import Phrasebook.Proofs.Table.Grouping
import Phrasebook.Proofs.Table.Composing
import Phrasebook.Proofs.Table.Canonical
import Phrasebook.Proofs.Include.Directive
import Phrasebook.Proofs.Disk.Traversal
import Phrasebook.Proofs.Survey.Suffixes
import Phrasebook.Proofs.Disk.Without
import Phrasebook.Proofs.Include.Spared
import Phrasebook.Proofs.Survey.Unreadable
import Phrasebook.Proofs.Text.Decoding
import Phrasebook.Proofs.Text.InvalidParts
import Phrasebook.Proofs.CallSite.StrayBytes
import Phrasebook.Proofs.Text.Replacing
import Phrasebook.Proofs.Entity.Priority
import Phrasebook.Proofs.CallSite.LongerNames
