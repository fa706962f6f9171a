import TransportHub.Session
import TransportHub.Proofs.Run
import TransportHub.Proofs.Agenda
import TransportHub.Proofs.Sessions
import TransportHub.Proofs.Flow
import TransportHub.Proofs.Lanes
import TransportHub.Proofs.Lifecycle
import TransportHub.Proofs.Metrics
import TransportHub.Proofs.Balance
import TransportHub.Proofs.Shutdown
import TransportHub.Proofs.LateStarts
import TransportHub.Proofs.Connections
import TransportHub.Proofs.RegistryHistory
import TransportHub.Proofs.DeviceDeliveries
import TransportHub.Proofs.PublishedLists
import TransportHub.Proofs.Silence
import TransportHub.Proofs.Audience
import TransportHub.Proofs.Wakeups
import TransportHub.Proofs.Reconnects
import TransportHub.Proofs.Finality
import TransportHub.Proofs.Confluence
import TransportHub.Proofs.Indifference
import TransportHub.Proofs.Noninterference
import TransportHub.Proofs.Custody
import TransportHub.Proofs.Stirring
import TransportHub.Proofs.Draining
import TransportHub.Proofs.Refusals
import TransportHub.Proofs.Starts
import TransportHub.Proofs.Within
import TransportHub.Proofs.Grants
import TransportHub.Proofs.Allotment
import TransportHub.Proofs.Routing
import TransportHub.Proofs.Tags
import TransportHub.Proofs.Registrations
import TransportHub.Proofs.Configuration
