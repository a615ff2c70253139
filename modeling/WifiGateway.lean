import WifiGateway.Waiting.Code
import WifiGateway.Waiting.Machine
import WifiGateway.Waiting.Deployed
import WifiGateway.Waiting.Writes
import WifiGateway.Waiting.Restricted
import WifiGateway.Controller.Session
import WifiGateway.Controller.Slots
import WifiGateway.Controller.Host
import WifiGateway.Controller.Turns
import WifiGateway.Controller.Edits
import WifiGateway.Controller.Effect
import WifiGateway.Controller.Simulation
import WifiGateway.Controller.TickSimulation
import WifiGateway.Controller.Calls
import WifiGateway.Controller.Defaults
import WifiGateway.Controller.History
import WifiGateway.Runs.Unwinding
import WifiGateway.Runs.Guards
import WifiGateway.Controller.Isolation
import WifiGateway.Controller.Lockstep
import WifiGateway.Controller.ReturnCodes
import WifiGateway.Controller.Setters
import WifiGateway.Controller.Budget
import WifiGateway.Controller.SessionTime
import WifiGateway.Controller.Watchdog
import WifiGateway.Controller.Success
import WifiGateway.Controller.Reclaim
import WifiGateway.Controller.Stays
import WifiGateway.Controller.KeepAlive
import WifiGateway.Controller.Nested
import WifiGateway.Controller.Waits
import WifiGateway.Controller.Reentrancy
import WifiGateway.Controller.SingleFlight
import WifiGateway.Controller.Interleaving
import WifiGateway.Controller.Within
import WifiGateway.Controller.Writes
import WifiGateway.Api.Adaptor
import WifiGateway.Api.Fidelity
import WifiGateway.Api.Registration
import WifiGateway.RunCommand
import WifiGateway.RunCommandAsync
import WifiGateway.Php.Value
import WifiGateway.Php.Json
import WifiGateway.Web.Endpoint
import WifiGateway.Web.JsonRpc
import WifiGateway.Web.Panel
import WifiGateway.Text.Grep
import WifiGateway.Text.LazyMatch
import WifiGateway.Text.Lines
import WifiGateway.Text.Words
import WifiGateway.Text.Arg
import WifiGateway.FileWatcher.Watcher
import WifiGateway.FileWatcher.Batching
import WifiGateway.FileWatcher.Rotation
import WifiGateway.FileWatcher.Truncation
import WifiGateway.FileWatcher.Cursor
import WifiGateway.QuotaBeacon
import WifiGateway.Controller.Register
import WifiGateway.Controller.Aside
import WifiGateway.Iptables.Ruleset
import WifiGateway.Iptables.Lookup
import WifiGateway.Iptables.Frame
import WifiGateway.Iptables.Footprint
import WifiGateway.Iptables.Hooks
import WifiGateway.Iptables.Traversal
import WifiGateway.Text.Ipv4
import WifiGateway.Script.Functions
import WifiGateway.Lists.FirstMatch
import WifiGateway.Script.HostChains
import WifiGateway.Script.HostSet
import WifiGateway.Script.Leases
import WifiGateway.Script.Setup
import WifiGateway.Script.Atomicity
import WifiGateway.Script.CleanUp
import WifiGateway.Script.Report
import WifiGateway.Script.Restart
import WifiGateway.Script.Lives
import WifiGateway.Script.Reset
import WifiGateway.Script.Start
import WifiGateway.Script.Enforcement
import WifiGateway.Script.Arguments
import WifiGateway.Gateway.Deployed
import WifiGateway.Gateway.Packets
import WifiGateway.Gateway.Life
import WifiGateway.Gateway.Pipeline
import WifiGateway.Gateway.Visitors
import WifiGateway.Gateway.Window
import WifiGateway.Gateway.OpenWindow
import WifiGateway.Gateway.Online
import WifiGateway.Gateway.Main
