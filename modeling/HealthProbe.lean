import HealthProbe.CommandLine.Program
import HealthProbe.Main
import HealthProbe.Proofs.Agenda.Isolation
import HealthProbe.Proofs.Network.Outcome
import HealthProbe.Proofs.NodeStatus.Refinement
import HealthProbe.Proofs.Agenda.Outcome
import HealthProbe.Proofs.Agenda.Pacing
import HealthProbe.Proofs.Agenda.Ending
import HealthProbe.Proofs.Config.References
import HealthProbe.Proofs.Config.Substitution
import HealthProbe.Proofs.Config.Acceptance
import HealthProbe.Proofs.NodeStatus.History
import HealthProbe.Proofs.CommandLine.CheckPass
import HealthProbe.Proofs.Network.Influence
import HealthProbe.Proofs.Pass.Protocol
import HealthProbe.Proofs.Pass.SideBySide
import HealthProbe.Proofs.Catalogue.Building
import HealthProbe.Proofs.CommandLine.Agreement
import HealthProbe.Proofs.CommandLine.CheckResults
import HealthProbe.Proofs.Pass.Judgement
import HealthProbe.Proofs.Verdict.Detail
import HealthProbe.Proofs.Pass.Duration
import HealthProbe.Proofs.CommandLine.CheckFailures
import HealthProbe.Proofs.Config.RoundTrip
import HealthProbe.Proofs.CommandLine.SingleRuns
import HealthProbe.Proofs.NodeStatus.FailedUpdate
import HealthProbe.Proofs.Dns.Deciding
import HealthProbe.Proofs.Dns.Query
import HealthProbe.Proofs.Network.SideBySide
import HealthProbe.Proofs.Counters.Watch
import HealthProbe.Proofs.Peers.Writing
import HealthProbe.Proofs.Catalogue.Accepted
import HealthProbe.Proofs.Catalogue.Registrations
import HealthProbe.Proofs.NodeStatus.Crossing
import HealthProbe.Proofs.Network.Deadlines
