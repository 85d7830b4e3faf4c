import Baseband.Bench.Run
import Baseband.Envelope.Schema
import Baseband.Settings.Writer
import Baseband.Proofs.Text.Utf8
import Baseband.Proofs.Envelope.Reading
import Baseband.Proofs.Envelope.Schema
import Baseband.Proofs.Envelope.Accesses
import Baseband.Proofs.Record
import Baseband.Proofs.Record.Truncation
import Baseband.Proofs.Response
import Baseband.Proofs.Version
import Baseband.Proofs.Discovery.Pass
import Baseband.Proofs.Discovery.Backoff
import Baseband.Proofs.Discovery.Rounds
import Baseband.Proofs.Binary.Nearest
import Baseband.Proofs.Binary.Double
import Baseband.Proofs.Binary.Bits
import Baseband.Proofs.Binary.Operations
import Baseband.Proofs.Duration
import Baseband.Proofs.Discovery.Growth
import Baseband.Proofs.Client.Calls
import Baseband.Proofs.Client.Moves
import Baseband.Proofs.Client.Completions
import Baseband.Proofs.Client.Delays
import Baseband.Proofs.Client.Fates
import Baseband.Proofs.Client.Changes
import Baseband.Proofs.Client.Returns
import Baseband.Proofs.Client.Sharing
import Baseband.Proofs.Client.Setup
import Baseband.Proofs.Client.Sending
import Baseband.Proofs.Client.Lookups
import Baseband.Proofs.Client.Course
import Baseband.Proofs.Client.Search
import Baseband.Proofs.Client.Served
import Baseband.Proofs.Run.Basic
import Baseband.Proofs.Run.Completions
import Baseband.Proofs.Run.Requests
import Baseband.Proofs.Run.Responses
import Baseband.Proofs.Run.Sessions
import Baseband.Proofs.Run.Routing
import Baseband.Proofs.Run.Acquire
import Baseband.Proofs.Run.Probing
import Baseband.Proofs.Run.Versions
import Baseband.Proofs.Run.Nesting
import Baseband.Proofs.Run.Teardown
import Baseband.Proofs.Run.Flush
import Baseband.Proofs.Run.Failures
import Baseband.Proofs.Run.Refusals
import Baseband.Proofs.Run.Discovery
import Baseband.Proofs.Outstanding.Ledger
import Baseband.Proofs.Outstanding.Rotation
import Baseband.Proofs.Outstanding.Search
import Baseband.Proofs.Loopback
import Baseband.Proofs.Network.Basic
import Baseband.Proofs.Network.Setup
import Baseband.Proofs.Network.Steps
import Baseband.Proofs.Network.Death
import Baseband.Proofs.Network.Rounds
import Baseband.Proofs.Network.Exchange
import Baseband.Proofs.Discovery.Directory
import Baseband.Proofs.Network.Alone
import Baseband.Proofs.Network.Discovery
import Baseband.Proofs.Client.Indications
import Baseband.Proofs.Loopback.Recipients
import Baseband.Proofs.Json.Printer
import Baseband.Proofs.Settings.Amendments
import Baseband.Proofs.Settings.Names
import Baseband.Proofs.Settings.Draft
import Baseband.Proofs.Version.Spelling
