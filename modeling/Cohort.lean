import Cohort.Actor.Basic
import Cohort.Actor.Registry
import Cohort.Backoff
import Cohort.Channel.Inbound
import Cohort.Channel.Messenger
import Cohort.Channel.Writer
import Cohort.Config
import Cohort.Crypto.Aes
import Cohort.Crypto.Gcm
import Cohort.Crypto.Sha256
import Cohort.Dispatch
import Cohort.Error
import Cohort.Health.Detector
import Cohort.Health.Loss
import Cohort.Health.Trial
import Cohort.Json.Basic
import Cohort.Json.Report
import Cohort.Json.Scenario
import Cohort.Main
import Cohort.Member.Basic
import Cohort.Member.Draft
import Cohort.Member.Groups
import Cohort.Member.Local
import Cohort.Membership.Application
import Cohort.Membership.Change
import Cohort.Membership.Joining
import Cohort.Membership.Leaving
import Cohort.Membership.Manager
import Cohort.Membership.Procedure
import Cohort.Membership.Reception
import Cohort.Membership.Sending
import Cohort.Membership.Watch
import Cohort.Message.Basic
import Cohort.Message.Codec
import Cohort.Message.Frame
import Cohort.Message.Kind
import Cohort.Net.Address
import Cohort.Net.Interfaces
import Cohort.Node.Arguments
import Cohort.Node.Journal
import Cohort.Node.Ping
import Cohort.Proofs.Actor.Loop
import Cohort.Proofs.Actor.Registry
import Cohort.Proofs.Channel.Exchange
import Cohort.Proofs.Channel.Inbound
import Cohort.Proofs.Channel.Neighbours
import Cohort.Proofs.Channel.Writer
import Cohort.Proofs.Health.Attendance
import Cohort.Proofs.Health.Bookkeeping
import Cohort.Proofs.Health.Decline
import Cohort.Proofs.Health.Entries
import Cohort.Proofs.Health.Fate
import Cohort.Proofs.Health.Handling
import Cohort.Proofs.Health.Ledger
import Cohort.Proofs.Health.Loss
import Cohort.Proofs.Health.Order
import Cohort.Proofs.Health.Partition
import Cohort.Proofs.Health.Removal
import Cohort.Proofs.Health.Reporters
import Cohort.Proofs.Health.Requests
import Cohort.Proofs.Health.Run
import Cohort.Proofs.Health.Standing
import Cohort.Proofs.Health.Survivors
import Cohort.Proofs.Health.Suspicion
import Cohort.Proofs.Health.Table
import Cohort.Proofs.Health.Timers
import Cohort.Proofs.Health.Ward
import Cohort.Proofs.Member.Draft
import Cohort.Proofs.Member.Groups
import Cohort.Proofs.Member.Identity
import Cohort.Proofs.Member.Making
import Cohort.Proofs.Member.Order
import Cohort.Proofs.Membership.Accord
import Cohort.Proofs.Membership.Admission
import Cohort.Proofs.Membership.Adoption
import Cohort.Proofs.Membership.Agreement
import Cohort.Proofs.Membership.Course
import Cohort.Proofs.Membership.Datagrams
import Cohort.Proofs.Membership.Departed
import Cohort.Proofs.Membership.Expulsion
import Cohort.Proofs.Membership.Group
import Cohort.Proofs.Membership.Growth
import Cohort.Proofs.Membership.Installation
import Cohort.Proofs.Membership.Issue
import Cohort.Proofs.Membership.News
import Cohort.Proofs.Membership.Numbering
import Cohort.Proofs.Membership.Outcome
import Cohort.Proofs.Membership.Pieces
import Cohort.Proofs.Membership.Procedures
import Cohort.Proofs.Membership.Provenance
import Cohort.Proofs.Membership.Quest
import Cohort.Proofs.Membership.Restraint
import Cohort.Proofs.Membership.Seeking
import Cohort.Proofs.Membership.Turns
import Cohort.Proofs.Membership.Vigil
import Cohort.Proofs.Message.Codec
import Cohort.Proofs.Message.Frame
import Cohort.Proofs.Message.Schema
import Cohort.Proofs.Message.Truncation
import Cohort.Proofs.Schedule.Conservation
import Cohort.Proofs.Schedule.Delay
import Cohort.Proofs.Schedule.Ending
import Cohort.Proofs.Schedule.Execution
import Cohort.Proofs.Schedule.Passes
import Cohort.Proofs.Schedule.Queues
import Cohort.Proofs.Schedule.Runs
import Cohort.Proofs.Schedule.Steps
import Cohort.Proofs.Session.Epochs
import Cohort.Proofs.Session.Ideal
import Cohort.Proofs.Session.Marks
import Cohort.Proofs.Session.Offer
import Cohort.Proofs.Session.Service
import Cohort.Proofs.Session.Window
import Cohort.Proofs.Text.Utf8
import Cohort.Proofs.Transport.Callers
import Cohort.Proofs.Transport.Changes
import Cohort.Proofs.Transport.Delivery
import Cohort.Proofs.Transport.Forgery
import Cohort.Proofs.Transport.Keys
import Cohort.Proofs.Transport.Nonces
import Cohort.Proofs.Transport.Offers
import Cohort.Proofs.Transport.Service
import Cohort.Proofs.Transport.Sessions
import Cohort.Proofs.View.Coordinator
import Cohort.Proofs.View.Difference
import Cohort.Proofs.View.Distinct
import Cohort.Proofs.View.Election
import Cohort.Proofs.View.Schema
import Cohort.Proofs.View.Succession
import Cohort.Proofs.View.Successor
import Cohort.Proofs.View.Turnover
import Cohort.Proofs.Wire.Economy
import Cohort.Proofs.Wire.Reading
import Cohort.Proofs.Wire.Words
import Cohort.Scenario.Alone
import Cohort.Scenario.FabricEnds
import Cohort.Scenario.Hosts.Answer
import Cohort.Scenario.Hosts.Basic
import Cohort.Scenario.Hosts.Network
import Cohort.Scenario.Hosts.Nodes
import Cohort.Scenario.Hosts.Run
import Cohort.Scenario.Offline
import Cohort.Scenario.OneMember
import Cohort.Scenario.Sessions
import Cohort.Scenario.Steps
import Cohort.Schedule.Basic
import Cohort.Schedule.Script
import Cohort.Session.Basic
import Cohort.Session.Record
import Cohort.Session.Replay
import Cohort.Simulation.Agenda
import Cohort.Simulation.Calls
import Cohort.Simulation.Datagrams
import Cohort.Simulation.Demonstration
import Cohort.Simulation.Network
import Cohort.Simulation.Peers
import Cohort.Simulation.Run
import Cohort.Simulation.Starting
import Cohort.Simulation.Streams
import Cohort.Simulation.Threads
import Cohort.Simulation.Waiting
import Cohort.Simulation.World
import Cohort.Simulation.Writers
import Cohort.Span
import Cohort.Statistics.Basic
import Cohort.Statistics.Json
import Cohort.Text.Blank
import Cohort.Text.Hidden
import Cohort.Text.Quoted
import Cohort.Text.Utf8
import Cohort.Transport.Fabric
import Cohort.Transport.Ring
import Cohort.Transport.Secure
import Cohort.View.Basic
import Cohort.Wire.Fault
import Cohort.Wire.Reader
import Cohort.Wire.Writer
