import Quorate.Scenario.Command
import Quorate.Scenario.Recording
import Quorate.Severity
import Quorate.Proofs.Change.Difference
import Quorate.Proofs.Change.Return
import Quorate.Proofs.Change.Safety
import Quorate.Proofs.CommitLog.Acknowledged
import Quorate.Proofs.CommitLog.Agreement
import Quorate.Proofs.CommitLog.Freshness
import Quorate.Proofs.CommitLog.Tenure
import Quorate.Proofs.Cluster.Atomicity
import Quorate.Proofs.Cluster.Place
import Quorate.Proofs.Election.Durability
import Quorate.Proofs.Election.Exactness
import Quorate.Proofs.Ensemble.Transparency
import Quorate.Proofs.Quorum.Decision
import Quorate.Proofs.Request.RoundTrip
import Quorate.Proofs.Request.Wire
import Quorate.Proofs.Role.Standing
import Quorate.Proofs.Service.Failover
import Quorate.Proofs.Service.Handover
import Quorate.Proofs.Service.Notices
import Quorate.Proofs.Service.Registry
import Quorate.Proofs.Sessions.Desk
import Quorate.Proofs.Stamp.Spelling
import Quorate.Proofs.Scenario.Content
import Quorate.Proofs.View.Window
