import Attribution.Assoc
import Attribution.Cache.Announce
import Attribution.Cache.Basic
import Attribution.Cache.Listener
import Attribution.Cgroup.CpuSet
import Attribution.Cgroup.Layout
import Attribution.Cgroup.Limits
import Attribution.Cgroup.Membership
import Attribution.Container.Image
import Attribution.Container.Normalize
import Attribution.Container.Record
import Attribution.Container.Spec
import Attribution.Container.Thread
import Attribution.Containerd.Channel
import Attribution.Containerd.Client
import Attribution.Containerd.Deadline
import Attribution.Containerd.Inventory
import Attribution.Engine.Basic
import Attribution.Engine.Discovery
import Attribution.Event.Added
import Attribution.Event.Emitter
import Attribution.Event.Sanitize
import Attribution.Event.Stamp
import Attribution.Fault
import Attribution.Files.Access
import Attribution.Files.Tree
import Attribution.Json.Access
import Attribution.Json.Reader
import Attribution.Json.Value
import Attribution.Json.Writer
import Attribution.Log.Level
import Attribution.Log.Line
import Attribution.Main
import Attribution.Number.Binary
import Attribution.Program.CommandLine
import Attribution.Program.Host
import Attribution.Program.Scan
import Attribution.Proofs.Cache.Announcement
import Attribution.Proofs.Cache.Call
import Attribution.Proofs.Cache.Emission
import Attribution.Proofs.Cache.Event
import Attribution.Proofs.Cache.History
import Attribution.Proofs.Cache.Interleaving
import Attribution.Proofs.Cache.Listening
import Attribution.Proofs.Cgroup.Controller
import Attribution.Proofs.Cgroup.CpuCount
import Attribution.Proofs.Cgroup.Layout
import Attribution.Proofs.Cgroup.Legibility
import Attribution.Proofs.Cgroup.Limits
import Attribution.Proofs.Cgroup.Listing
import Attribution.Proofs.Cgroup.Membership
import Attribution.Proofs.Cgroup.Pattern
import Attribution.Proofs.Cgroup.Range
import Attribution.Proofs.Cgroup.Versions
import Attribution.Proofs.Container.Document
import Attribution.Proofs.Container.Growth
import Attribution.Proofs.Container.Image
import Attribution.Proofs.Container.Locality
import Attribution.Proofs.Container.Options
import Attribution.Proofs.Container.Place
import Attribution.Proofs.Container.Rejoining
import Attribution.Proofs.Container.Spec
import Attribution.Proofs.Container.Thread
import Attribution.Proofs.Containerd.Calls
import Attribution.Proofs.Containerd.Connection
import Attribution.Proofs.Containerd.Deadline
import Attribution.Proofs.Containerd.Fragment
import Attribution.Proofs.Containerd.Handshakes
import Attribution.Proofs.Containerd.Inventory
import Attribution.Proofs.Containerd.Sharing
import Attribution.Proofs.Engine.Calls
import Attribution.Proofs.Engine.Closing
import Attribution.Proofs.Engine.Halting
import Attribution.Proofs.Engine.Identity
import Attribution.Proofs.Engine.Offer
import Attribution.Proofs.Engine.Outcome
import Attribution.Proofs.Engine.Publication
import Attribution.Proofs.Engine.Readiness
import Attribution.Proofs.Engine.Reservation
import Attribution.Proofs.Engine.Resolution
import Attribution.Proofs.Engine.Search
import Attribution.Proofs.Engine.Selection
import Attribution.Proofs.Event.Cleaning
import Attribution.Proofs.Event.Labels
import Attribution.Proofs.Event.Members
import Attribution.Proofs.Event.Sanitize
import Attribution.Proofs.Event.Stream
import Attribution.Proofs.Files.Access
import Attribution.Proofs.Json.Grammar
import Attribution.Proofs.Json.Path
import Attribution.Proofs.Json.Spelling
import Attribution.Proofs.Json.Writing
import Attribution.Proofs.Number.Binary
import Attribution.Proofs.Program.CommandLine
import Attribution.Proofs.Program.Completion
import Attribution.Proofs.Program.Repetition
import Attribution.Proofs.Program.Report
import Attribution.Proofs.Program.Stranding
import Attribution.Proofs.Program.Telling
import Attribution.Proofs.Program.Visit
import Attribution.Proofs.Table
import Attribution.Proofs.Text.Cut
import Attribution.Proofs.Text.Integer
import Attribution.Proofs.Text.Lines
import Attribution.Proofs.Text.Utf8
import Attribution.Proofs.Wire.Grammar
import Attribution.Proofs.Wire.Message
import Attribution.Proofs.Wire.Request
import Attribution.Proofs.Wire.Retention
import Attribution.Proofs.Wire.RoundTrip
import Attribution.Proofs.Wire.Undeclared
import Attribution.Settings.Basic
import Attribution.Settings.EnvFile
import Attribution.Settings.Load
import Attribution.Settings.Value
import Attribution.Text.Blank
import Attribution.Text.Cased
import Attribution.Text.Cut
import Attribution.Text.Digit
import Attribution.Text.Integer
import Attribution.Text.Lines
import Attribution.Text.Lowercase
import Attribution.Text.Printable
import Attribution.Text.Quoted
import Attribution.Text.Range
import Attribution.Text.Utf8
import Attribution.Wire.Container
import Attribution.Wire.Field
import Attribution.Wire.Varint
