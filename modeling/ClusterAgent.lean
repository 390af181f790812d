import ClusterAgent.Agent.Basic
import ClusterAgent.Agent.Intake
import ClusterAgent.Agent.Remote
import ClusterAgent.Agent.Schedule
import ClusterAgent.Agent.Step
import ClusterAgent.Cluster.Call
import ClusterAgent.Cluster.Client
import ClusterAgent.Cluster.Failure
import ClusterAgent.Cluster.Following
import ClusterAgent.Cluster.Invocation
import ClusterAgent.Cluster.Kubectl
import ClusterAgent.Cluster.Memory
import ClusterAgent.Cluster.Playback
import ClusterAgent.CommandLine
import ClusterAgent.Config.Basic
import ClusterAgent.Config.Display
import ClusterAgent.Config.Load
import ClusterAgent.Decimal.Double
import ClusterAgent.Decimal.Shortest
import ClusterAgent.Files
import ClusterAgent.Handler.All
import ClusterAgent.Handler.Objects
import ClusterAgent.Handler.Params
import ClusterAgent.Handler.Program
import ClusterAgent.Handler.Retry
import ClusterAgent.Handler.Sessions
import ClusterAgent.Json.Basic
import ClusterAgent.Json.Documents
import ClusterAgent.Json.Fault
import ClusterAgent.Json.Numeral
import ClusterAgent.Json.Quote
import ClusterAgent.Json.Reader
import ClusterAgent.Json.Reading
import ClusterAgent.Json.Record
import ClusterAgent.Json.Writer
import ClusterAgent.Kind
import ClusterAgent.Main
import ClusterAgent.Outbound
import ClusterAgent.Protocol.Envelope
import ClusterAgent.Protocol.Request
import ClusterAgent.Protocol.Response
import ClusterAgent.Registry
import ClusterAgent.Session.Console
import ClusterAgent.Session.Log
import ClusterAgent.Session.Replay
import ClusterAgent.Session.Shell
import ClusterAgent.Session.Stream
import ClusterAgent.Session.Timeline
import ClusterAgent.SessionTable
import ClusterAgent.Text.Base64
import ClusterAgent.Text.Blank
import ClusterAgent.Text.Digits
import ClusterAgent.Text.Hidden
import ClusterAgent.Text.Quoted
import ClusterAgent.Toml.Lexeme
import ClusterAgent.Toml.Reader
import ClusterAgent.Toml.Scalar
import ClusterAgent.Toml.Table
import ClusterAgent.Toml.Value
import ClusterAgent.Tunnel.Connection
import ClusterAgent.Tunnel.Dial
import ClusterAgent.Tunnel.Launch
import ClusterAgent.Tunnel.Redial
import ClusterAgent.Tunnel.Startup
import ClusterAgent.Tunnel.Wakeup
import ClusterAgent.Watch.Decoder
import ClusterAgent.Watch.Gate
import ClusterAgent.Yaml.Character
import ClusterAgent.Yaml.Fault
import ClusterAgent.Yaml.Grammar
import ClusterAgent.Yaml.Lexeme
import ClusterAgent.Yaml.Node
import ClusterAgent.Yaml.Printer
import ClusterAgent.Yaml.Reader
import ClusterAgent.Yaml.Scalar
import ClusterAgent.Yaml.Token
import ClusterAgent.Yaml.Tokens
import ClusterAgent.Proofs.Registration
import ClusterAgent.Proofs.Agent.World
import ClusterAgent.Proofs.Agent.Frame
import ClusterAgent.Proofs.Agent.Replies
import ClusterAgent.Proofs.Tunnel.Delivery
import ClusterAgent.Proofs.Tunnel.Course
import ClusterAgent.Proofs.Json.Paths
import ClusterAgent.Proofs.Json.Ordered
import ClusterAgent.Proofs.Json.Fieldwise
import ClusterAgent.Proofs.Yaml.Values
import ClusterAgent.Proofs.Handler.Alone
import ClusterAgent.Proofs.Handler.Entries
import ClusterAgent.Proofs.Cluster.Versions
import ClusterAgent.Proofs.Handler.Scaling
import ClusterAgent.Proofs.Handler.Race
import ClusterAgent.Proofs.Handler.Editing
import ClusterAgent.Proofs.Handler.Parameters
import ClusterAgent.Proofs.Handler.Deleting
import ClusterAgent.Proofs.Handler.Conversation
import ClusterAgent.Proofs.Handler.Retrying
import ClusterAgent.Proofs.Text.Base64
import ClusterAgent.Proofs.Protocol.Wire
import ClusterAgent.Proofs.Session.Shell
import ClusterAgent.Proofs.Agent.Bridges
import ClusterAgent.Proofs.Agent.BridgeStep
import ClusterAgent.Proofs.Agent.Story
import ClusterAgent.Proofs.Agent.Seats
import ClusterAgent.Proofs.Agent.Lifecycle
import ClusterAgent.Proofs.Outbound.History
import ClusterAgent.Proofs.Handler.Confinement
import ClusterAgent.Proofs.Handler.Refetching
import ClusterAgent.Proofs.Handler.Storing
import ClusterAgent.Proofs.Handler.Naming
import ClusterAgent.Proofs.Cluster.Arguments
import ClusterAgent.Proofs.Cluster.Classification
import ClusterAgent.Proofs.Agent.Stages
import ClusterAgent.Proofs.Agent.LogBridges
import ClusterAgent.Proofs.Agent.LogStory
import ClusterAgent.Proofs.Agent.Families
import ClusterAgent.Proofs.Agent.Opening
import ClusterAgent.Proofs.Agent.Addressing
import ClusterAgent.Proofs.Decimal.Magnitude
import ClusterAgent.Proofs.Json.Interior
import ClusterAgent.Proofs.Json.Streams
import ClusterAgent.Proofs.Json.Quoting
import ClusterAgent.Proofs.Watch.Forwarding
import ClusterAgent.Proofs.Watch.Cutting
import ClusterAgent.Proofs.Watch.Board
import ClusterAgent.Proofs.Watch.Sequential
import ClusterAgent.Proofs.Watch.Switch
import ClusterAgent.Proofs.Agent.LogLifecycle
import ClusterAgent.Proofs.Json.RoundTrip
import ClusterAgent.Proofs.Tunnel.Redial
import ClusterAgent.Proofs.SessionTable
import ClusterAgent.Proofs.Session.Turns
import ClusterAgent.Proofs.Session.Loopback
import ClusterAgent.Proofs.Agent.Parcels
import ClusterAgent.Proofs.Agent.Calls
import ClusterAgent.Proofs.Agent.Input
import ClusterAgent.Proofs.Config.Range
import ClusterAgent.Proofs.Tunnel.Launch
import ClusterAgent.Proofs.Json.Splitting
import ClusterAgent.Proofs.Watch.Recovery
import ClusterAgent.Proofs.Session.Replay
import ClusterAgent.Proofs.Cluster.Following
import ClusterAgent.Proofs.Agent.LogPayloads
import ClusterAgent.Proofs.Text.Canonical
import ClusterAgent.Proofs.Tunnel.Wakeup
