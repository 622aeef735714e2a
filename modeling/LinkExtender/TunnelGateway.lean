import LinkExtender.Link
import LinkExtender.PeerTracker
import LinkExtender.UdpTunnel

/-!
# The gateway of an interface

`TunnelGateway`: the nodes seen on the local network, the surrogates that stand
in for remote nodes, and the two peer trackers.  A socket is named by the
endpoint it is bound to.  Calls of `Tunnel::forward`, datagrams sent on the local
network and notifications of the two observers are outputs.
-/

namespace LinkExtender

structure RemoteNodeSurrogate where
  stateSocket : UdpEndpoint
  measurementSocket : UdpEndpoint
deriving DecidableEq

structure LocalNodeEndpoints where
  stateEndpoint : UdpEndpoint
  measurementEndpoint : UdpEndpoint
deriving DecidableEq

instance : Inhabited LocalNodeEndpoints := ⟨⟨default, default⟩⟩

/-- The arguments of `Tunnel::forward`. -/
structure ForwardCall where
  type : TunnelMessageType
  fromNode : NodeId
  message : List UInt8
  toNode : Option NodeId
deriving DecidableEq

/-- The arguments of the `forward` that a gateway is handed at the other end. -/
def LocalMessage.call (m : LocalMessage) : ForwardCall :=
  ⟨m.type, m.fromNode, m.buffer.bytes.take m.size, m.toNode⟩

inductive PeerNotification where
  | sawPeer (state : PeerState)
  | peerLeft (node : NodeId)
  | peerTimedOut (node : NodeId)
deriving DecidableEq

inductive GatewayOutput where
  | send (source : UdpEndpoint) (bytes : List UInt8) (dest : UdpEndpoint)
  | forward (call : ForwardCall)
  | localObserver (notification : PeerNotification)
  | remoteObserver (notification : PeerNotification)
deriving DecidableEq

/-- What the surroundings answer while a tunnel message is handled: the clock,
the sockets that `openUnicastSocket` returns (none where it throws) and whether
`send` throws. -/
structure LocalIo where
  now : TimePoint
  nodeSockets : Option RemoteNodeSurrogate
  measurementSocket : Option UdpEndpoint
  sendFails : Bool
deriving DecidableEq

structure TunnelGateway where
  localInterfaceAddress : IpAddress
  mLocalTracker : PeerTracker
  mRemoteTracker : PeerTracker
  mRemoteNodeIdToRemoteNodeSurrogate : PartialMap NodeId RemoteNodeSurrogate
  mRemoteNodeIdToRemoteMeasurementSurrogate : PartialMap NodeId UdpEndpoint
  localNodeIdToEndpointMap : PartialMap NodeId LocalNodeEndpoints
  localMeasurementEndpointToNodeId : PartialMap String NodeId

namespace TunnelGateway

/-- The constructor. -/
def create (interfaceAddress : IpAddress) : TunnelGateway where
  localInterfaceAddress := interfaceAddress
  mLocalTracker := PeerTracker.initial
  mRemoteTracker := PeerTracker.initial
  mRemoteNodeIdToRemoteNodeSurrogate := PartialMap.empty
  mRemoteNodeIdToRemoteMeasurementSurrogate := PartialMap.empty
  localNodeIdToEndpointMap := PartialMap.empty
  localMeasurementEndpointToNodeId := PartialMap.empty

/-- `stop_listening`, without the sockets.  The timers run on. -/
def stopListening (g : TunnelGateway) : TunnelGateway :=
  { g with
    mRemoteNodeIdToRemoteNodeSurrogate := PartialMap.empty
    mRemoteNodeIdToRemoteMeasurementSurrogate := PartialMap.empty
    localNodeIdToEndpointMap := PartialMap.empty
    localMeasurementEndpointToNodeId := PartialMap.empty
    mLocalTracker := g.mLocalTracker.clear
    mRemoteTracker := g.mRemoteTracker.clear }

def hasLocalNode (g : TunnelGateway) (id : NodeId) : Bool :=
  (g.localNodeIdToEndpointMap.find id).isSome

def hasRemoteNodeSurrogate (g : TunnelGateway) (ident : NodeId) : Bool :=
  (g.mRemoteNodeIdToRemoteNodeSurrogate.find ident).isSome

def createKeyFromEndpoint (link : LinkLibrary) (endpoint : UdpEndpoint) : String :=
  link.addressToString endpoint.address ++ ":" ++ toString endpoint.port.toNat

/-! ## From the local network to the tunnel -/

/-- `localNodeIdToEndpointMap[id].measurementEndpoint`, which is the default
endpoint for an unknown node. -/
def measurementKey (link : LinkLibrary) (g : TunnelGateway) (id : NodeId) : String :=
  createKeyFromEndpoint link
    ((g.localNodeIdToEndpointMap.find id).getD default).measurementEndpoint

def receiveByeBye (link : LinkLibrary) (g : TunnelGateway) (fromNode : NodeId)
    (message : List UInt8) (toNode : Option NodeId) : TunnelGateway × List GatewayOutput :=
  ({ g with
      mLocalTracker := g.mLocalTracker.remove fromNode
      localMeasurementEndpointToNodeId :=
        g.localMeasurementEndpointToNodeId.erase (g.measurementKey link fromNode)
      localNodeIdToEndpointMap := g.localNodeIdToEndpointMap.erase fromNode },
    [.forward ⟨.byebye, fromNode, message, toNode⟩, .localObserver (.peerLeft fromNode)])

/-- `wholeMessageEnd` is moved back by the size of the endpoint entry. -/
def withoutEndpoint (link : LinkLibrary) (message : List UInt8) (endpoint : UdpEndpoint) :
    List UInt8 :=
  message.take (message.length - link.measEndpointEntrySize endpoint)

def receivePeerState (link : LinkLibrary) (g : TunnelGateway) (now : TimePoint)
    (fromEndpoint : UdpEndpoint) (header : MessageHeader) (message payload : List UInt8)
    (toNode : Option NodeId) : TunnelGateway × List GatewayOutput :=
  match link.fromPayload header.ident payload with
  | none => (g, [])
  | some state =>
      ({ g with
          localNodeIdToEndpointMap :=
            g.localNodeIdToEndpointMap.insert header.ident ⟨fromEndpoint, state.endpoint⟩
          localMeasurementEndpointToNodeId :=
            g.localMeasurementEndpointToNodeId.insert
              (createKeyFromEndpoint link state.endpoint) header.ident
          mLocalTracker := g.mLocalTracker.updateTimeout now state.ident header.ttl },
        [.localObserver (.sawPeer state),
          .forward ⟨if toNode.isSome then .unicast else .broadcast, header.ident,
            withoutEndpoint link message state.endpoint, toNode⟩])

def handleStateMessage (link : LinkLibrary) (g : TunnelGateway) (now : TimePoint)
    (fromEndpoint : UdpEndpoint) (header : MessageHeader) (message payload : List UInt8)
    (toNode : Option NodeId) : TunnelGateway × List GatewayOutput :=
  if g.hasRemoteNodeSurrogate header.ident then (g, [])
  else
    match header.messageType with
    | .kAlive | .kResponse =>
        g.receivePeerState link now fromEndpoint header message payload toNode
    | .kByeBye => g.receiveByeBye link header.ident message toNode
    | .other => (g, [])

/-- `drawn` is what `NodeId::random` returns if it is called. -/
def handleMeasurementMessage (link : LinkLibrary) (g : TunnelGateway) (drawn : NodeId)
    (fromEndpoint : UdpEndpoint) (message : List UInt8) (toNode : NodeId) :
    TunnelGateway × List GatewayOutput :=
  let key := createKeyFromEndpoint link fromEndpoint
  match link.isPing message, g.localMeasurementEndpointToNodeId.find key with
  | true, none =>
      ({ g with
          localMeasurementEndpointToNodeId :=
            g.localMeasurementEndpointToNodeId.insert key drawn
          localNodeIdToEndpointMap :=
            g.localNodeIdToEndpointMap.insert drawn ⟨default, fromEndpoint⟩ },
        [.forward ⟨.measurementPing, drawn, message, some toNode⟩])
  | true, some node => (g, [.forward ⟨.measurementPing, node, message, some toNode⟩])
  | false, some node => (g, [.forward ⟨.measurementPong, node, message, some toNode⟩])
  | false, none => (g, [])

/-- An IPv4 sender outside the /24 network of an IPv4 interface. -/
def ignoreIpV4Message (g : TunnelGateway) (fromEndpoint : UdpEndpoint) : Bool :=
  !g.localInterfaceAddress.sameSubnet24 fromEndpoint.address

/-- `TunnelGateway::operator()`, up to re-arming the socket. -/
def receive (link : LinkLibrary) (g : TunnelGateway) (now : TimePoint)
    (fromEndpoint : UdpEndpoint) (message : List UInt8) (toNode : Option NodeId) :
    TunnelGateway × List GatewayOutput :=
  let (header, payload) := link.parseMessageHeader message
  if g.ignoreIpV4Message fromEndpoint then (g, [])
  else g.handleStateMessage link now fromEndpoint header message payload toNode

/-! ## From the tunnel to the local network -/

def getBroadcastEndpoint (link : LinkLibrary) (g : TunnelGateway) : UdpEndpoint :=
  match g.localInterfaceAddress with
  | .v4 _ => link.multicastEndpointV4
  | .v6 _ scopeId => link.multicastEndpointV6 scopeId

/-- Surrogates are created on demand; nothing is stored where opening throws. -/
def getSocketForRemoteNode (g : TunnelGateway) (io : LocalIo) (ident : NodeId)
    (getMeasurementSocket : Bool) : TunnelGateway × Option UdpEndpoint :=
  let socket (surrogate : RemoteNodeSurrogate) : UdpEndpoint :=
    if getMeasurementSocket then surrogate.measurementSocket else surrogate.stateSocket
  match g.mRemoteNodeIdToRemoteNodeSurrogate.find ident with
  | some surrogate => (g, some (socket surrogate))
  | none =>
      match io.nodeSockets with
      | some surrogate =>
          ({ g with
              mRemoteNodeIdToRemoteNodeSurrogate :=
                g.mRemoteNodeIdToRemoteNodeSurrogate.insert ident surrogate },
            some (socket surrogate))
      | none => (g, none)

def getSocketForRemoteMeasurement (g : TunnelGateway) (io : LocalIo) (ident : NodeId) :
    TunnelGateway × Option UdpEndpoint :=
  match g.mRemoteNodeIdToRemoteMeasurementSurrogate.find ident with
  | some socket => (g, some socket)
  | none =>
      match io.measurementSocket with
      | some socket =>
          ({ g with
              mRemoteNodeIdToRemoteMeasurementSurrogate :=
                g.mRemoteNodeIdToRemoteMeasurementSurrogate.insert ident socket },
            some socket)
      | none => (g, none)

/-- The last lines of `resolveDestination`: an endpoint that is not IPv4 goes
through `ipV6Endpoint`, which throws on an IPv4 interface. -/
def localEndpoint (g : TunnelGateway) (endpoint : UdpEndpoint) : Option UdpEndpoint :=
  match endpoint.address, g.localInterfaceAddress with
  | .v4 _, _ => some endpoint
  | .v6 bytes _, .v6 _ scopeId => some ⟨.v6 bytes scopeId, endpoint.port⟩
  | .v6 _ _, .v4 _ => none

structure RoutingResult where
  socket : UdpEndpoint
  endpoint : UdpEndpoint
deriving DecidableEq

/-- The two ways out of `resolveDestination` once the socket is known. -/
def routeVia (endpoint : UdpEndpoint) :
    TunnelGateway × Option UdpEndpoint → TunnelGateway × Option RoutingResult
  | (g, some socket) =>
      (g, (g.localEndpoint endpoint).map (fun endpoint ↦ ⟨socket, endpoint⟩))
  | (g, none) => (g, none)

/-- `resolveDestination`.  It gives none where the source returns `nullopt` or
throws; the surrogate it may have created stays. -/
def resolveDestination (link : LinkLibrary) (g : TunnelGateway) (io : LocalIo)
    (type : TunnelMessageType) (fromNode : NodeId) (toNode : Option NodeId) :
    TunnelGateway × Option RoutingResult :=
  match type, toNode.bind g.localNodeIdToEndpointMap.find with
  | .byebye, _ | .broadcast, _ =>
      routeVia (g.getBroadcastEndpoint link) (g.getSocketForRemoteNode io fromNode false)
  | _, none => (g, none)
  | .measurementPing, some target =>
      routeVia target.measurementEndpoint (g.getSocketForRemoteMeasurement io fromNode)
  | .measurementPong, some target =>
      routeVia target.measurementEndpoint (g.getSocketForRemoteNode io fromNode true)
  | _, some target => routeVia target.stateEndpoint (g.getSocketForRemoteNode io fromNode false)

def observeRemotePeerState (link : LinkLibrary) (g : TunnelGateway) (now : TimePoint)
    (fromNode : NodeId) (message : List UInt8) : TunnelGateway × List GatewayOutput :=
  let (header, payload) := link.parseMessageHeader message
  match link.fromPayload fromNode payload with
  | some state =>
      ({ g with mRemoteTracker := g.mRemoteTracker.updateTimeout now state.ident header.ttl },
        [.remoteObserver (.sawPeer state)])
  | none => (g, [])

def onRemotePeerLeft (g : TunnelGateway) (nodeId : NodeId) :
    TunnelGateway × List GatewayOutput :=
  ({ g with mRemoteTracker := g.mRemoteTracker.remove nodeId },
    [.remoteObserver (.peerLeft nodeId)])

/-- The first `if` of `forwardMessageLocally` behind the routing. -/
def observe (link : LinkLibrary) (g : TunnelGateway) (now : TimePoint)
    (message : LocalMessage) : TunnelGateway × List GatewayOutput :=
  match message.type with
  | .broadcast | .unicast =>
      g.observeRemotePeerState link now message.fromNode
        (message.buffer.bytes.take message.size)
  | .byebye => g.onRemotePeerLeft message.fromNode
  | _ => (g, [])

/-- `appendMeasurementEndpoint`: the buffer and the size up to the new
`messageEnd`, none where opening a surrogate throws. -/
def appendMeasurementEndpoint (link : LinkLibrary) (g : TunnelGateway) (io : LocalIo)
    (fromNode : NodeId) (buffer : MessageBuffer) (size : ℕ) :
    TunnelGateway × Option (MessageBuffer × ℕ) :=
  match g.getSocketForRemoteNode io fromNode true with
  | (g, none) => (g, none)
  | (g, some socket) =>
      let payload := link.endpointPayload socket
      if size + payload.length < kMaxMessageSize then
        (g, some (buffer.write size payload, size + payload.length))
      else (g, some (buffer, size))

/-- The types whose message goes out as it came. -/
def isSentWhole : TunnelMessageType → Bool
  | .measurementPing | .byebye => true
  | _ => false

def sendUdpMessage (io : LocalIo) (routing : RoutingResult) (buffer : MessageBuffer)
    (size : ℕ) : List GatewayOutput :=
  if io.sendFails then [] else [.send routing.socket (buffer.bytes.take size) routing.endpoint]

/-- `forwardMessageLocally`, with the buffer that the next gateway is given. -/
def forwardMessageLocally (link : LinkLibrary) (g : TunnelGateway) (io : LocalIo)
    (message : LocalMessage) : TunnelGateway × MessageBuffer × List GatewayOutput :=
  match g.resolveDestination link io message.type message.fromNode message.toNode with
  | (g, none) => (g, message.buffer, [])
  | (g, some routing) =>
      let (g, observed) := g.observe link io.now message
      if isSentWhole message.type then
        (g, message.buffer,
          observed ++ sendUdpMessage io routing message.buffer message.size)
      else
        match g.appendMeasurementEndpoint link io message.fromNode message.buffer
          message.size with
        | (g, some (buffer, size)) =>
            (g, buffer, observed ++ sendUdpMessage io routing buffer size)
        | (g, none) => (g, message.buffer, observed)

/-! ## Timeouts -/

def onLocalPeerTimedOut (link : LinkLibrary) (g : TunnelGateway) (id : NodeId) :
    TunnelGateway :=
  match g.localNodeIdToEndpointMap.find id with
  | some endpoints =>
      { g with
        localMeasurementEndpointToNodeId :=
          g.localMeasurementEndpointToNodeId.erase
            (createKeyFromEndpoint link endpoints.measurementEndpoint)
        localNodeIdToEndpointMap := g.localNodeIdToEndpointMap.erase id }
  | none => g

def onRemotePeerTimedOut (g : TunnelGateway) (id : NodeId) : TunnelGateway :=
  { g with
    mRemoteNodeIdToRemoteNodeSurrogate := g.mRemoteNodeIdToRemoteNodeSurrogate.erase id
    mRemoteNodeIdToRemoteMeasurementSurrogate :=
      g.mRemoteNodeIdToRemoteMeasurementSurrogate.erase id }

/-- `mLocalTracker.prune()` with its callback. -/
def pruneLocal (link : LinkLibrary) (g : TunnelGateway) (now : TimePoint) :
    TunnelGateway × List GatewayOutput :=
  let expired := g.mLocalTracker.expired now
  ({ expired.foldl (onLocalPeerTimedOut link) g with
      mLocalTracker := g.mLocalTracker.prune now },
    expired.map (fun id ↦ .localObserver (.peerTimedOut id)))

/-- `mRemoteTracker.prune()` with its callback. -/
def pruneRemote (g : TunnelGateway) (now : TimePoint) :
    TunnelGateway × List GatewayOutput :=
  let expired := g.mRemoteTracker.expired now
  ({ expired.foldl onRemotePeerTimedOut g with
      mRemoteTracker := g.mRemoteTracker.prune now },
    expired.map (fun id ↦ .remoteObserver (.peerTimedOut id)))

end TunnelGateway

/-! ## The gateway as a machine -/

/-- What can happen on the side of the local network: datagrams on the multicast
socket and on the sockets of a node's surrogates, and the two timers. -/
inductive LanEvent where
  | multicast (sender : UdpEndpoint) (datagram : Datagram)
  | stateSocket (node : NodeId) (sender : UdpEndpoint) (datagram : Datagram)
  | measurementSocket (node : NodeId) (sender : UdpEndpoint) (datagram : Datagram)
      (drawn : NodeId)
  | measurementSurrogateSocket (node : NodeId) (sender : UdpEndpoint)
      (datagram : Datagram) (drawn : NodeId)
  | localTimer
  | remoteTimer
deriving DecidableEq

inductive GatewayEvent where
  | lan (now : TimePoint) (e : LanEvent)
  | tunnel (io : LocalIo) (message : LocalMessage)
deriving DecidableEq

namespace TunnelGateway

/-- Sockets that do not exist receive nothing, and a timer whose wait is not
over does nothing. -/
def lanStep (link : LinkLibrary) (g : TunnelGateway) (now : TimePoint) :
    LanEvent → TunnelGateway × List GatewayOutput
  | .multicast sender datagram => g.receive link now sender datagram.bytes none
  | .stateSocket node sender datagram =>
      match g.mRemoteNodeIdToRemoteNodeSurrogate.find node with
      | some _ => g.receive link now sender datagram.bytes (some node)
      | none => (g, [])
  | .measurementSocket node sender datagram drawn =>
      match g.mRemoteNodeIdToRemoteNodeSurrogate.find node with
      | some _ => g.handleMeasurementMessage link drawn sender datagram.bytes node
      | none => (g, [])
  | .measurementSurrogateSocket node sender datagram drawn =>
      match g.mRemoteNodeIdToRemoteMeasurementSurrogate.find node with
      | some _ => g.handleMeasurementMessage link drawn sender datagram.bytes node
      | none => (g, [])
  | .localTimer => if g.mLocalTracker.isDue now then g.pruneLocal link now else (g, [])
  | .remoteTimer => if g.mRemoteTracker.isDue now then g.pruneRemote now else (g, [])

/-- A running gateway on its own. -/
def machine (link : LinkLibrary) :
    EventMachine.Machine TunnelGateway GatewayEvent GatewayOutput
  | g, .lan now e => g.lanStep link now e
  | g, .tunnel io message =>
      let (g, _, out) := g.forwardMessageLocally link io message
      (g, out)

/-! ## The surroundings that `tst_TunnelGateway.cpp` sets up -/

def kLocalIfAddr : IpAddress := .v4 0xc0a80164

def kSameSubnetPeer : UdpEndpoint := ⟨.v4 0xc0a801c8, 20808⟩

/-- Unicast sockets are bound to consecutive loopback ports. -/
def openSockets (nextPort : UInt16) : LocalIo :=
  ⟨0, some ⟨localhost nextPort, localhost (nextPort + 1)⟩, some (localhost nextPort), false⟩

end TunnelGateway

end LinkExtender
