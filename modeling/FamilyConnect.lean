import FamilyConnect.ReliableStream.Link
import FamilyConnect.ReliableStream.Congestion
import FamilyConnect.ReliableStream.Gaps
import FamilyConnect.ReliableStream.Estimator
import FamilyConnect.ReliableStream.TransmitQueue
import FamilyConnect.TCPForward.RoundRobin
import FamilyConnect.TCPForward.Callers
import FamilyConnect.Telemost.MediaPath
import FamilyConnect.Telemost.RoundTrip
import FamilyConnect.Telemost.ReorderRuns
import FamilyConnect.FamilySession.Agreement
import FamilyConnect.RoomBroker.TimelyExchange
import FamilyConnect.DesktopAuto.Guarantees
import FamilyConnect.LinuxGuard.Traffic
import FamilyConnect.LinuxGuard.Recovery
import FamilyConnect.Messenger.Outbox
import FamilyConnect.Messenger.Reliable
import FamilyConnect.Messenger.Edits
import FamilyConnect.Messenger.Fields
import FamilyConnect.Fleet.Fencing
import FamilyConnect.Friends.GatewayDecisions
import FamilyConnect.Friends.Revocation
import FamilyConnect.Friends.DeliveryAgreement
import FamilyConnect.Discovery.Cache
import FamilyConnect.Provisioning.CrashSafety
