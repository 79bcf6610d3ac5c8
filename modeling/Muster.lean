import Muster.Address.Basic
import Muster.Client.Manager
import Muster.CommandLine.Programs
import Muster.Main
import Muster.Server.Effort
import Muster.Proofs.Membership
import Muster.Proofs.Registry.Operation
import Muster.Proofs.Registry.Table
import Muster.Proofs.Registry.ViewNumbers
import Muster.Proofs.Registry.Members
import Muster.Proofs.Registry.Retirement
import Muster.Proofs.Registry.Alone
import Muster.Proofs.Registry.Snapshot
import Muster.Proofs.Registry.Exposure
import Muster.Proofs.Relay.Eviction
import Muster.Proofs.Relay.Repair
import Muster.Proofs.Relay.Rejoin
import Muster.Proofs.Client.Agreement
import Muster.Proofs.Client.Generations
import Muster.Proofs.Client.News
import Muster.Proofs.Client.Reconnecting
import Muster.Proofs.Message.RoundTrip
import Muster.Proofs.Registry.Addressees
import Muster.Proofs.Client.Parting
import Muster.Proofs.Relay.PassingOn
import Muster.Proofs.Relay.Joining
import Muster.Proofs.Relay.Removal
import Muster.Proofs.Relay.Replies
import Muster.Proofs.Registry.Seniority
import Muster.Proofs.Registry.Rest
import Muster.Proofs.Text.Order
import Muster.Proofs.Registry.Upkeep
import Muster.Proofs.Relay.Isolation
import Muster.Proofs.Registry.Identity
import Muster.Proofs.Registry.Seeding
import Muster.Proofs.Relay.Batch
import Muster.Proofs.Message.Spelling
import Muster.Proofs.Message.Relaying
import Muster.Proofs.Client.Delivery
import Muster.Proofs.Client.Rehearsals
import Muster.Proofs.Address.Spelling
import Muster.Proofs.Views
