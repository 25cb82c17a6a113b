import PortGraph.File.Disk
import PortGraph.Main
import PortGraph.Proofs.Order.Canonical
import PortGraph.Proofs.Graph.Ports
import PortGraph.Proofs.Graph.Links
import PortGraph.Proofs.Graph.Edits
import PortGraph.Proofs.Graph.Order
import PortGraph.Proofs.Graph.Calls
import PortGraph.Proofs.Graph.Requests
import PortGraph.Proofs.Graph.Cache
import PortGraph.Proofs.Graph.Reachable
import PortGraph.Proofs.Graph.Compiled
import PortGraph.Proofs.Graph.Topology
import PortGraph.Proofs.Net.Calls
import PortGraph.Proofs.Net.Coherent
import PortGraph.Proofs.Net.Form
import PortGraph.Proofs.Net.Create
import PortGraph.Proofs.Net.Builtin
import PortGraph.Proofs.Net.Wrapped
import PortGraph.Proofs.Net.Stock
import PortGraph.Proofs.Graph.Passes
import PortGraph.Proofs.Graph.Turns
import PortGraph.Proofs.Graph.Consistent
import PortGraph.Proofs.Graph.Traits
import PortGraph.Proofs.Graph.Terms
import PortGraph.Proofs.Graph.Inputs
import PortGraph.Proofs.Graph.Refusals
import PortGraph.Proofs.Graph.Ledger
import PortGraph.Proofs.Graph.Chronicle
import PortGraph.Proofs.Net.Feeding
import PortGraph.Proofs.Net.Compute
import PortGraph.Proofs.Net.Live
import PortGraph.Proofs.Net.Verdict
import PortGraph.Proofs.Net.Reachable
import PortGraph.Proofs.Net.Account
import PortGraph.Proofs.Net.Progress
import PortGraph.Proofs.Net.Alike
import PortGraph.Proofs.Net.Inline
import PortGraph.Proofs.Net.Candid
import PortGraph.Proofs.Net.Required
import PortGraph.Proofs.Net.Kept
import PortGraph.Proofs.Net.Cold
import PortGraph.Proofs.Net.Starved
import PortGraph.Proofs.Net.Flat
import PortGraph.Proofs.Net.Driven
import PortGraph.Proofs.Net.Repeat
import PortGraph.Proofs.Net.Reordered
import PortGraph.Proofs.Net.Brackets
import PortGraph.Proofs.Net.Quiet
import PortGraph.Proofs.Net.Fits
import PortGraph.Proofs.Net.History
import PortGraph.Proofs.Number.Binary
import PortGraph.Proofs.Number.Written
import PortGraph.Proofs.Json.Canonical
import PortGraph.Proofs.Json.Decode
import PortGraph.Proofs.Json.Token
import PortGraph.Proofs.Json.Text
import PortGraph.Proofs.Ron.Token
import PortGraph.Proofs.Ron.Text
import PortGraph.Proofs.Value.Config
import PortGraph.Proofs.Description.Config
import PortGraph.Proofs.Description.Text
import PortGraph.Proofs.Description.Ron
import PortGraph.Proofs.Net.Rebuilt
import PortGraph.Proofs.Net.Naming
import PortGraph.Proofs.Net.Wrapping
import PortGraph.Proofs.Net.Saved
import PortGraph.Proofs.Net.Restored
import PortGraph.Proofs.Net.Operators
import PortGraph.Proofs.Net.RoundTrip
import PortGraph.Proofs.Net.Unsaved
import PortGraph.Proofs.Net.Loading
import PortGraph.Proofs.Net.Steady
import PortGraph.Proofs.Graph.Broken
import PortGraph.Proofs.Graph.Compilation
import PortGraph.Proofs.Graph.Persists
import PortGraph.Proofs.Net.Protected
import PortGraph.Proofs.Net.Built
import PortGraph.Proofs.Net.Enclosed
import PortGraph.Proofs.Graph.Effects
import PortGraph.Proofs.Graph.Levels
import PortGraph.Proofs.Graph.Linking
import PortGraph.Proofs.Graph.Removal
import PortGraph.Proofs.Graph.Renamed
import PortGraph.Proofs.Net.Sided
import PortGraph.Proofs.Graph.Accessors
import PortGraph.Proofs.Graph.Labels
import PortGraph.Proofs.Net.Blueprint
import PortGraph.Proofs.Net.Wired
import PortGraph.Proofs.Net.Traced
import PortGraph.Proofs.Number.Overflow
import PortGraph.Proofs.Value.Reread
import PortGraph.Proofs.Command.Missing
import PortGraph.Proofs.Net.Resolved
import PortGraph.Proofs.Node.Machine
