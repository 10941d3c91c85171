import Cfrp.Lib.Transition
import Cfrp.Lib.Table
import Cfrp.Server.Effects
import Cfrp.Server.Traffic
import Cfrp.Server.Cleanup
import Cfrp.Server.HandOver
import Cfrp.Server.Isolation
import Cfrp.Server.Registry
import Cfrp.Server.Tickets
import Cfrp.Server.UdpSessions
import Cfrp.Server.Registrations
import Cfrp.Server.Clock
import Cfrp.Server.Rejected
import Cfrp.Server.Endpoints
import Cfrp.Server.Gauge
import Cfrp.Server.AllowedPorts
import Cfrp.Server.Management
import Cfrp.Server.ManagementServer
import Cfrp.Vhost.Types
import Cfrp.Protocol.RoundTrip
import Cfrp.Protocol.Indices
import Cfrp.Bridge.Udp
import Cfrp.Bridge.Endpoint
import Cfrp.Bridge.Vhost
import Cfrp.Bridge.Codec
import Cfrp.Bridge.Prefix
import Cfrp.Bridge.Starvation
import Cfrp.Client.Convergence
import Cfrp.Client.Inert
import Cfrp.Client.Stop
import Cfrp.Client.Backoff
import Cfrp.Websocket.Transparency
import Cfrp.Mux.Delivery
import Cfrp.Mux.Deadlock
import Cfrp.Mux.Zombies
import Cfrp.Mux.Failure
import Cfrp.Mux.Fin
import Cfrp.Mux.Framing
import Cfrp.Mux.Loans
import Cfrp.Mux.Freshness
import Cfrp.Mux.ReadQueue
import Cfrp.Websocket.Limits
import Cfrp.Websocket.Handshake
import Cfrp.Memory.Pool
import Cfrp.Quic.Completion
import Cfrp.Quic.Retransmit
import Cfrp.Quic.FullRead
import Cfrp.Quic.Closing
import Cfrp.Quic.Timer
import Cfrp.Quic.ServerInv
import Cfrp.Lib.Codec
import Cfrp.Server.Admission
import Cfrp.Control.Compression
import Cfrp.Mux.Heartbeat
import Cfrp.Splice.Agreement
import Cfrp.Transport.Deployment
