import DeviceRelay.Cleanup
import DeviceRelay.Main
import DeviceRelay.Pairing.Runs
import DeviceRelay.Proofs.Outbound
import DeviceRelay.Proofs.Pairing.Backends
import DeviceRelay.Proofs.Pairing.Shutdown
import DeviceRelay.Proofs.Pairing.Timers
import DeviceRelay.Proofs.Queue.Service
import DeviceRelay.Proofs.Directory.Entering
import DeviceRelay.Proofs.Inbound.Listing
import DeviceRelay.Proofs.Outbound.Frames
import DeviceRelay.Proofs.Relay.Delivery
import DeviceRelay.Proofs.Relay.Pacing
import DeviceRelay.Proofs.Rendezvous.Enrolment
import DeviceRelay.Proofs.Rendezvous.Resolution
import DeviceRelay.Proofs.Server.Attendance
import DeviceRelay.Proofs.Server.Callers
import DeviceRelay.Proofs.Server.Causes
import DeviceRelay.Proofs.Server.Deadlines
import DeviceRelay.Proofs.Server.Decoding
import DeviceRelay.Proofs.Server.Exclusivity
import DeviceRelay.Proofs.Server.Households
import DeviceRelay.Proofs.Server.Outcomes
import DeviceRelay.Proofs.Server.Replies
import DeviceRelay.Proofs.Server.Responding
import DeviceRelay.Proofs.Server.Unpairing
import DeviceRelay.Proofs.Service.Quotas
import DeviceRelay.Queue.Runs
import DeviceRelay.Relay.Runs
import DeviceRelay.Rendezvous.Runs
import DeviceRelay.Proofs.Server.Pairings
import DeviceRelay.Proofs.Service.Publishing
import DeviceRelay.Proofs.Server.Publishing
import DeviceRelay.Proofs.Pairing.Visits
import DeviceRelay.Proofs.Pairing.Waiting
import DeviceRelay.Proofs.Pairing.Polling
import DeviceRelay.Proofs.Service.Asking
import DeviceRelay.Proofs.Server.Asking
import DeviceRelay.Proofs.Queue.Capping
import DeviceRelay.Proofs.Relay.Filling
import DeviceRelay.Proofs.Server.Partings
