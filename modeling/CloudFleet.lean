import CloudFleet.Api.Client
import CloudFleet.Api.Form
import CloudFleet.Api.Markup
import CloudFleet.Api.MarkupReader
import CloudFleet.Api.Page
import CloudFleet.Api.ReceivedJson
import CloudFleet.Bench.Collect
import CloudFleet.Bench.Deploy
import CloudFleet.Bench.Params
import CloudFleet.Bench.Record
import CloudFleet.Bench.RecordJson
import CloudFleet.Bench.Rounds
import CloudFleet.Bench.Run
import CloudFleet.Bench.Schedule
import CloudFleet.Cloud.Call
import CloudFleet.Cloud.CallJson
import CloudFleet.Cloud.Inquiry
import CloudFleet.Cloud.Record
import CloudFleet.CommandLine.Arguments
import CloudFleet.CommandLine.Command
import CloudFleet.CommandLine.Experiment
import CloudFleet.CommandLine.Run
import CloudFleet.Config.Basic
import CloudFleet.Config.Load
import CloudFleet.Config.Record
import CloudFleet.Decimal.Reading
import CloudFleet.Decimal.Shortest
import CloudFleet.Decimal.Text
import CloudFleet.Fleet.Create
import CloudFleet.Fleet.Error
import CloudFleet.Fleet.Event
import CloudFleet.Fleet.EventJson
import CloudFleet.Fleet.Image
import CloudFleet.Fleet.Lifecycle
import CloudFleet.Fleet.NodeList
import CloudFleet.Fleet.Poll
import CloudFleet.Fleet.Record
import CloudFleet.Fleet.Refresh
import CloudFleet.Fleet.Registry
import CloudFleet.Fleet.ResultJson
import CloudFleet.Fleet.SecurityGroup
import CloudFleet.Fleet.Status
import CloudFleet.Fleet.Target
import CloudFleet.Instance.Basic
import CloudFleet.Instance.State
import CloudFleet.Json.Access
import CloudFleet.Json.Basic
import CloudFleet.Json.Fields
import CloudFleet.Json.Printer
import CloudFleet.Json.Reader
import CloudFleet.Log.Filter
import CloudFleet.Log.Line
import CloudFleet.Log.Subscriber
import CloudFleet.Main
import CloudFleet.Progress.Bar
import CloudFleet.Proofs.Api.Groups
import CloudFleet.Proofs.Api.Markup
import CloudFleet.Proofs.Api.Page
import CloudFleet.Proofs.Api.Paging
import CloudFleet.Proofs.Bench.Course
import CloudFleet.Proofs.Bench.Deliveries
import CloudFleet.Proofs.Bench.Depot
import CloudFleet.Proofs.Bench.Downloads
import CloudFleet.Proofs.Bench.LaunchLine
import CloudFleet.Proofs.Bench.Launching
import CloudFleet.Proofs.Bench.Leftovers
import CloudFleet.Proofs.Bench.Narrowing
import CloudFleet.Proofs.Bench.Operation
import CloudFleet.Proofs.Bench.Phases
import CloudFleet.Proofs.Bench.Planning
import CloudFleet.Proofs.Bench.Processes
import CloudFleet.Proofs.Bench.Repair
import CloudFleet.Proofs.Bench.Rounds
import CloudFleet.Proofs.Bench.Schedule
import CloudFleet.Proofs.Bench.Site
import CloudFleet.Proofs.Bench.Storing
import CloudFleet.Proofs.Bench.Syncing
import CloudFleet.Proofs.Bench.Table
import CloudFleet.Proofs.Bench.Unpacking
import CloudFleet.Proofs.Bench.Verdict
import CloudFleet.Proofs.Bench.Views
import CloudFleet.Proofs.Config.Partial
import CloudFleet.Proofs.Decimal.Numeral
import CloudFleet.Proofs.Fleet.Addresses
import CloudFleet.Proofs.Fleet.Arrival
import CloudFleet.Proofs.Fleet.Browsing
import CloudFleet.Proofs.Fleet.Creating
import CloudFleet.Proofs.Fleet.Describing
import CloudFleet.Proofs.Fleet.DryRuns
import CloudFleet.Proofs.Fleet.Finality
import CloudFleet.Proofs.Fleet.Grouping
import CloudFleet.Proofs.Fleet.Images
import CloudFleet.Proofs.Fleet.Index
import CloudFleet.Proofs.Fleet.Launching
import CloudFleet.Proofs.Fleet.Mirroring
import CloudFleet.Proofs.Fleet.Moving
import CloudFleet.Proofs.Fleet.NodeList
import CloudFleet.Proofs.Fleet.Observing
import CloudFleet.Proofs.Fleet.Operation
import CloudFleet.Proofs.Fleet.Preconditions
import CloudFleet.Proofs.Fleet.Probing
import CloudFleet.Proofs.Fleet.Provisioning
import CloudFleet.Proofs.Fleet.Reachability
import CloudFleet.Proofs.Fleet.Rebuilding
import CloudFleet.Proofs.Fleet.RegionOrder
import CloudFleet.Proofs.Fleet.Repetition
import CloudFleet.Proofs.Fleet.Resolving
import CloudFleet.Proofs.Fleet.Scope
import CloudFleet.Proofs.Fleet.Serving
import CloudFleet.Proofs.Fleet.Waiting
import CloudFleet.Proofs.Json.Grammar
import CloudFleet.Proofs.Json.Records
import CloudFleet.Proofs.Json.Scalars
import CloudFleet.Proofs.Random.Draw
import CloudFleet.Proofs.Region.Plan
import CloudFleet.Proofs.Rehearsal.Accord
import CloudFleet.Proofs.Rehearsal.Convergence
import CloudFleet.Proofs.Rehearsal.Playing
import CloudFleet.Proofs.Rehearsal.Polling
import CloudFleet.Proofs.Rehearsal.Regrouping
import CloudFleet.Proofs.Rehearsal.Replenishing
import CloudFleet.Proofs.Remote.Chains
import CloudFleet.Proofs.Remote.Course
import CloudFleet.Proofs.Remote.FanOut
import CloudFleet.Proofs.Remote.Narrowing
import CloudFleet.Proofs.Remote.Processes
import CloudFleet.Proofs.Remote.Scripts
import CloudFleet.Proofs.Remote.Session
import CloudFleet.Proofs.Remote.Words
import CloudFleet.Proofs.Text.Characters
import CloudFleet.Proofs.Text.Digest
import CloudFleet.Proofs.Text.Replacing
import CloudFleet.Proofs.Time.Calendar
import CloudFleet.Proofs.Time.Reading
import CloudFleet.Proofs.World.Raising
import CloudFleet.Random.Draw
import CloudFleet.Random.Mix
import CloudFleet.Region.Basic
import CloudFleet.Region.Plan
import CloudFleet.Rehearsal.Account
import CloudFleet.Rehearsal.Clients
import CloudFleet.Rehearsal.ControlPlane
import CloudFleet.Rehearsal.FileTree
import CloudFleet.Rehearsal.HiddenTime
import CloudFleet.Rehearsal.Hosts
import CloudFleet.Rehearsal.Performance
import CloudFleet.Rehearsal.Script
import CloudFleet.Rehearsal.ScriptRun
import CloudFleet.Rehearsal.SettingJson
import CloudFleet.Rehearsal.Show
import CloudFleet.Rehearsal.Stage
import CloudFleet.Remote.Outcome
import CloudFleet.Remote.OutcomeJson
import CloudFleet.Remote.Output
import CloudFleet.Remote.Quoting
import CloudFleet.Remote.Session
import CloudFleet.Remote.Ssh
import CloudFleet.Report
import CloudFleet.ReportJson
import CloudFleet.Text.Base64
import CloudFleet.Text.Blank
import CloudFleet.Text.Digest
import CloudFleet.Text.Digit
import CloudFleet.Text.LowerCase
import CloudFleet.Text.Octets
import CloudFleet.Text.Quoted
import CloudFleet.Time.Civil
import CloudFleet.Time.Duration
import CloudFleet.Time.Instant
import CloudFleet.Time.Reading
import CloudFleet.World.Consent
import CloudFleet.World.Embed
import CloudFleet.World.File
import CloudFleet.World.Inert
import CloudFleet.World.Program
import CloudFleet.World.Request
