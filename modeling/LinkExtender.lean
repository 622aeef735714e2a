import LinkExtender.Library.History
import LinkExtender.Library.Machine
import LinkExtender.Library.Trace
import LinkExtender.Library.Channel
import LinkExtender.Library.PartialMap
import LinkExtender.Library.Separators
import LinkExtender.Library.Recency
import LinkExtender.Library.RingBuffer
import LinkExtender.DedupCache.Calls
import LinkExtender.PeerTracker.Expiry
import LinkExtender.Tunnel.RoundTrip
import LinkExtender.UdpTunnel.Routing
import LinkExtender.UdpTunnel.Suppression
import LinkExtender.UdpTunnel.Receive
import LinkExtender.UdpTunnel.Admission
import LinkExtender.UdpTunnel.Connected
import LinkExtender.UdpTunnel.Interference
import LinkExtender.UdpTunnel.Stop
import LinkExtender.UdpTunnel.LastState
import LinkExtender.UdpTunnel.Delivery
import LinkExtender.Handshake.Joint
import LinkExtender.Handshake.Timeliness
import LinkExtender.Handshake.Network
import LinkExtender.TunnelGateway.Surrogates
import LinkExtender.TunnelGateway.Exclusion
import LinkExtender.TunnelGateway.Keys
import LinkExtender.TunnelGateway.Provenance
import LinkExtender.TunnelGateway.Stripping
import LinkExtender.TunnelGateway.Appending
import LinkExtender.TunnelGateway.Inverse
import LinkExtender.TunnelGateway.Notifications
import LinkExtender.Site.Measurements
import LinkExtender.Site.Overrun
import LinkExtender.Site.Transparency
import LinkExtender.Site.Relay
import LinkExtender.Site.Joined
import LinkExtender.Site.Pongs
import LinkExtender.Site.PassThrough
import LinkExtender.Site.Delivered
import LinkExtender.Site.Repair
import LinkExtender.Site.Origins
import LinkExtender.Site.Traffic
import LinkExtender.Site.Directed
import LinkExtender.Site.Arrivals
import LinkExtender.ShmTunnel.Backends
import LinkExtender.ShmTunnel.Clients
import LinkExtender.ShmTunnel.Routing
import LinkExtender.ShmTunnel.Mailbox
import LinkExtender.ShmTunnel.Forwarding
import LinkExtender.ShmTunnel.Rest
import LinkExtender.ShmTunnel.Sites
import LinkExtender.Controller
import LinkExtender.Controller.PeerCounts
import LinkExtender.Arguments.Grammar
import LinkExtender.Arguments.CommandLine
import LinkExtender.State.Expiry
import LinkExtender.State.Prompts
import LinkExtender.Extender.Vetting
