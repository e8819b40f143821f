import Rebuild.BuildOrder
import Rebuild.BuildSession
import Rebuild.CheckFile
import Rebuild.Decimal
import Rebuild.Decimal.Double
import Rebuild.Error
import Rebuild.FileSystem
import Rebuild.FileSystem.Change
import Rebuild.FileSystem.Fault
import Rebuild.Glob.Matching
import Rebuild.Glob.Pattern
import Rebuild.Glob.Selection
import Rebuild.Graph
import Rebuild.Graph.Cycle
import Rebuild.Graph.Sort
import Rebuild.LastModified
import Rebuild.Log
import Rebuild.Path
import Rebuild.PathSet
import Rebuild.Project
import Rebuild.Project.Descriptor
import Rebuild.Project.Key
import Rebuild.Proofs.BuildOrder.Clash
import Rebuild.Proofs.BuildOrder.Constraints
import Rebuild.Proofs.BuildOrder.Declarations
import Rebuild.Proofs.BuildOrder.InOrder
import Rebuild.Proofs.BuildOrder.Loop
import Rebuild.Proofs.BuildOrder.Outcome
import Rebuild.Proofs.BuildOrder.SameLinks
import Rebuild.Proofs.BuildSession
import Rebuild.Proofs.BuildSession.Omission
import Rebuild.Proofs.CheckFile
import Rebuild.Proofs.FileSystem.Entries
import Rebuild.Proofs.FileSystem.LookUp
import Rebuild.Proofs.FileSystem.Passage
import Rebuild.Proofs.FileSystem.Reach
import Rebuild.Proofs.FileSystem.Spelling
import Rebuild.Proofs.FileSystem.Status
import Rebuild.Proofs.FileSystem.Unlocked
import Rebuild.Proofs.FileSystem.WellFormed
import Rebuild.Proofs.Glob.Directories
import Rebuild.Proofs.Glob.Suffix
import Rebuild.Proofs.Graph.Counts
import Rebuild.Proofs.Graph.Cycle
import Rebuild.Proofs.Graph.Edges
import Rebuild.Proofs.Graph.Linearization
import Rebuild.Proofs.Graph.Progress
import Rebuild.Proofs.Graph.Requests
import Rebuild.Proofs.Graph.Tables
import Rebuild.Proofs.Graph.Tail
import Rebuild.Proofs.LastModified
import Rebuild.Proofs.Path.Components
import Rebuild.Proofs.Path.Slashed
import Rebuild.Proofs.PathSet
import Rebuild.Proofs.PathSet.Ascending
import Rebuild.Proofs.Precedence
import Rebuild.Proofs.Project.Coordinates
import Rebuild.Proofs.Project.Descriptor
import Rebuild.Proofs.Project.Key
import Rebuild.Proofs.Reading.Agreement
import Rebuild.Proofs.Reading.Alike
import Rebuild.Proofs.Reading.Amid
import Rebuild.Proofs.Sources.Amid
import Rebuild.Proofs.Sources.Ascending
import Rebuild.Proofs.Sources.Scan
import Rebuild.Proofs.Sources.Spelling
import Rebuild.Proofs.Staleness.Amid
import Rebuild.Proofs.Staleness.Convergence
import Rebuild.Proofs.Staleness.Monotone
import Rebuild.Proofs.Staleness.Roots
import Rebuild.Proofs.Staleness.SameTargets
import Rebuild.Proofs.Staleness.Sequence
import Rebuild.Proofs.Staleness.Settings
import Rebuild.Proofs.Staleness.Spelling
import Rebuild.Proofs.Staleness.Targets
import Rebuild.Proofs.Staleness.UpToDate
import Rebuild.Proofs.Text
import Rebuild.Proofs.Time.Order
import Rebuild.Proofs.Walk
import Rebuild.Reading
import Rebuild.Reported
import Rebuild.Sources
import Rebuild.Staleness.Policy
import Rebuild.Staleness.Request
import Rebuild.Staleness.Settings
import Rebuild.Staleness.Settings.Document
import Rebuild.Staleness.Targets
import Rebuild.Staleness.Verdict
import Rebuild.Staleness.Workload
import Rebuild.Text.Blank
import Rebuild.Text.Invisible
import Rebuild.Text.Quoted
import Rebuild.Time
import Rebuild.Walk
import Rebuild.Yaml.Cursor
import Rebuild.Yaml.Decoder
import Rebuild.Yaml.Document
import Rebuild.Yaml.Event
import Rebuild.Yaml.Fault
import Rebuild.Yaml.Readable
import Rebuild.Yaml.Scalar
import Rebuild.Yaml.Token
import Rebuild.Yaml.Token.Block
import Rebuild.Yaml.Token.Gap
import Rebuild.Yaml.Token.Plain
import Rebuild.Yaml.Token.Quoted
import Rebuild.Yaml.Token.Stream
import Rebuild.Yaml.Token.Tag
