import Stratum.About
import Stratum.Cache.Errors
import Stratum.Cache.Script
import Stratum.Calendar.IsoText
import Stratum.Engine
import Stratum.Registry
import Stratum.Value.Merge
import Stratum.Proofs.Calendar.Midnight
import Stratum.Proofs.Calendar.Order
import Stratum.Proofs.Engine.Session
import Stratum.Proofs.Engine.Table
import Stratum.Proofs.Cache.Operations
import Stratum.Proofs.Act
import Stratum.Proofs.Engine.Acts
import Stratum.Proofs.Engine.Agreement
import Stratum.Proofs.Cache.Steps
import Stratum.Proofs.Cache.History
import Stratum.Proofs.Cache.Flights
import Stratum.Proofs.Cache.Entries
import Stratum.Proofs.Cache.Generations
import Stratum.Proofs.Cache.SingleFlight
import Stratum.Proofs.Cache.Ownership
import Stratum.Proofs.Cache.Moves
import Stratum.Proofs.Cache.Delivery
import Stratum.Proofs.Cache.Clock
import Stratum.Proofs.Cache.Freshness
import Stratum.Proofs.Cache.Retention
import Stratum.Proofs.Resolve.Extensions
import Stratum.Proofs.Search.Candidates
import Stratum.Proofs.Search.FirstHit
import Stratum.Proofs.Resolve.Malformed
import Stratum.Proofs.Heap.Copy
import Stratum.Proofs.Overlay.Merge
import Stratum.Proofs.Heap.Building
import Stratum.Proofs.Overlay.Isolation
import Stratum.Proofs.Heap.ReadBack
import Stratum.Proofs.Engine.SearchFailures
import Stratum.Proofs.Shape
import Stratum.Proofs.Resolve.Typed
import Stratum.Proofs.Heap.Behind
import Stratum.Proofs.Heap.Assign
import Stratum.Proofs.Yaml.Load
import Stratum.Proofs.Resolve.Growth
import Stratum.Proofs.Resolve.Anew
import Stratum.Proofs.Engine.Reading
import Stratum.Proofs.Cache.Fetch
import Stratum.Proofs.Engine.Ledger
import Stratum.Proofs.Engine.Answers
import Stratum.Proofs.Overlay.Reading
import Stratum.Proofs.Engine.Merging
import Stratum.Proofs.Engine.Exemption
import Stratum.Proofs.Text.Printable
import Stratum.Proofs.Resolve.Reports
import Stratum.Proofs.Resolve.Printing
import Stratum.Proofs.Cache.Reports
import Stratum.Proofs.Engine.Diagnostics
import Stratum.Proofs.Cache.Circles
import Stratum.Proofs.Cache.Waiting
import Stratum.Proofs.Cache.Clearing
import Stratum.Proofs.Overlay.Paths
import Stratum.Proofs.Text.Utf8
import Stratum.Proofs.Engine.RawText
import Stratum.Proofs.Shape.Records
import Stratum.Proofs.Search.Warnings
import Stratum.Proofs.Resolve.Blame
import Stratum.Proofs.Resolve.MissNotice
import Stratum.Proofs.Search.EmptyEntries
import Stratum.Proofs.Overlay.Again
import Stratum.Proofs.Overlay.Exclusions
import Stratum.Proofs.Text.Pieces
import Stratum.Proofs.Directories
