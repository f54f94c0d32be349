import ConveneWire.Run.IntentLifecycle
import ConveneWire.Run.StartRequests
import ConveneWire.Bridge.InboxCrash
import ConveneWire.Link
import ConveneWire.Discussion.Finalizer
import ConveneWire.Discussion.Terminal
import ConveneWire.Discussion.ProgressHistory
import ConveneWire.Discussion.Transcript
import ConveneWire.Contracts.ExecutionInclusion
import ConveneWire.Contracts.PeerWriters
import ConveneWire.Relay.Safety
import ConveneWire.Memory.RollingRoom
import ConveneWire.Peer.Agreement
import ConveneWire.Peer.Recovery
import ConveneWire.Governed.Converges
import ConveneWire.Grants.Revocation
import ConveneWire.Integration.Exact
import ConveneWire.TransactionBoundary
