import Reveille.Settings
import Reveille.Scenario.Bus
import Reveille.Scenario.SharedBus
import Reveille.Scenario.Runner
import Reveille.Scenario.Poll
import Reveille.Proofs.Poll.Lifecycle
import Reveille.Proofs.Poll.Votes
import Reveille.Proofs.Poll.Quorum
import Reveille.Proofs.Poll.Owner
import Reveille.Proofs.Poll.Punctual
import Reveille.Proofs.Poll.Journal
import Reveille.Proofs.Runner.Ledger
import Reveille.Proofs.Runner.Passes
import Reveille.Proofs.Runner.Prompt
import Reveille.Proofs.System.Close
import Reveille.Proofs.Poll.Settlement
import Reveille.Proofs.Runner.Calm
import Reveille.Proofs.Poll.Trace
import Reveille.Proofs.Poll.Routing
import Reveille.Proofs.Bus.Handover
import Reveille.Proofs.System.Hiring
import Reveille.Proofs.Runner.Events
import Reveille.Proofs.System.Inbox
import Reveille.Proofs.System.Rounds
import Reveille.Proofs.System.Visits
import Reveille.Proofs.System.Reception
import Reveille.Proofs.Runner.Errors
import Reveille.Proofs.Bus.Dismissal
import Reveille.Proofs.Runner.Leave
import Reveille.Proofs.System.Career
import Reveille.Proofs.System.Departure
import Reveille.Proofs.System.Launch
import Reveille.Proofs.Poll.Startup
import Reveille.Proofs.System.Shutdown
import Reveille.Proofs.Poll.Accord
import Reveille.Proofs.Poll.Receipt
import Reveille.Proofs.System.Contained
import Reveille.Proofs.Time.Sleep
import Reveille.Proofs.Runner.Handling
import Reveille.Proofs.Runner.Rescan
import Reveille.Proofs.System.Slots
import Reveille.Proofs.Jitter
import Reveille.Proofs.Offer
