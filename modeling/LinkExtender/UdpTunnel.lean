import LinkExtender.Tunnel
import LinkExtender.Library.Machine
import Mathlib.Data.Finset.Basic

/-!
# The UDP tunnel

`UdpTunnel`: the peer table, the handshake, the routing of node ids to peers
and the duplicate filter in front of `forward`.  Every handler takes the state
and the clock readings it makes, and returns the new state with what it does to
the outside: datagrams handed to the socket, calls of `forward_locally` and
runs of the unknown-peer callback.
-/

namespace LinkExtender

def kMaintenanceInterval : TimePoint := seconds 5

def kKeepaliveTimeout : TimePoint := seconds 15

inductive PeerConnectionState where
  | disconnected
  | connecting
  | connected
deriving DecidableEq

structure PeerEntry where
  endpoint : UdpEndpoint
  state : PeerConnectionState
  lastSeen : TimePoint
deriving DecidableEq

inductive TunnelOutput where
  | send (dest : UdpEndpoint) (bytes : List UInt8)
  | forwardLocally (message : LocalMessage)
  | unknownPeer (endpoint : UdpEndpoint)
deriving DecidableEq

structure UdpTunnel where
  isRunning : Bool
  mDedupCache : DedupCache
  mPeers : List PeerEntry
  remoteNodeIdToPeerIdx : PartialMap NodeId ℕ
  mEndpointToPeerIdx : PartialMap UdpEndpoint ℕ
  mPendingPeers : Finset UdpEndpoint
  mRejectedPeers : Finset UdpEndpoint

namespace UdpTunnel

/-! ## Sending -/

/-- `sendRaw`: the first `bytes` bytes of the buffer go to the socket. -/
def sendRaw (msg : MessageBuffer) (bytes : ℕ) (dest : UdpEndpoint) : TunnelOutput :=
  .send dest (msg.bytes.take bytes)

def sendControlMessage (type : TunnelMessageType) (dest : UdpEndpoint) :
    List TunnelOutput :=
  match encapsulate ⟨default, type, none, 0⟩ [] with
  | some msg => [sendRaw msg (encapsulatedSize type 0) dest]
  | none => []

def sendHello (dest : UdpEndpoint) : List TunnelOutput :=
  sendControlMessage .tunnelHello dest

def sendKeepalive (dest : UdpEndpoint) : List TunnelOutput :=
  sendControlMessage .tunnelKeepalive dest

def sendBye (dest : UdpEndpoint) : List TunnelOutput :=
  sendControlMessage .tunnelBye dest

/-! ## The peer table -/

def freshEntry (endpoint : UdpEndpoint) : PeerEntry := ⟨endpoint, .disconnected, 0⟩

/-- The push that the constructor, `addPeer` and `acceptFn` share. -/
def pushPeer (t : UdpTunnel) (endpoint : UdpEndpoint) : UdpTunnel :=
  { t with
    mPeers := t.mPeers ++ [freshEntry endpoint]
    mEndpointToPeerIdx := t.mEndpointToPeerIdx.insert endpoint t.mPeers.length }

/-- The constructor.  It pushes the initial peers without looking for
repetitions. -/
def create (initialPeers : List UdpEndpoint) : UdpTunnel :=
  initialPeers.foldl pushPeer
    { isRunning := true
      mDedupCache := DedupCache.initial
      mPeers := []
      remoteNodeIdToPeerIdx := PartialMap.empty
      mEndpointToPeerIdx := PartialMap.empty
      mPendingPeers := ∅
      mRejectedPeers := ∅ }

def erasePeerNodeIds (routes : PartialMap NodeId ℕ) (peerIdx : ℕ) :
    PartialMap NodeId ℕ :=
  routes.eraseValues (fun idx ↦ idx = peerIdx)

/-- The loop of `rebuildEndpointIndex` from position `i` on. -/
def rebuildFrom (i : ℕ) : List PeerEntry → PartialMap UdpEndpoint ℕ →
    PartialMap UdpEndpoint ℕ
  | [], index => index
  | peer :: peers, index => rebuildFrom (i + 1) peers (index.insert peer.endpoint i)

def rebuildEndpointIndex (peers : List PeerEntry) : PartialMap UdpEndpoint ℕ :=
  rebuildFrom 0 peers PartialMap.empty

/-- The task that `addPeer` posts. -/
def addPeer (t : UdpTunnel) (endpoint : UdpEndpoint) : UdpTunnel × List TunnelOutput :=
  match t.mEndpointToPeerIdx.find endpoint with
  | some _ => (t, [])
  | none => (t.pushPeer endpoint, sendHello endpoint)

/-- The task that `removePeer` posts.  The positions behind the removed one are
closed up in `mPeers`; `remoteNodeIdToPeerIdx` keeps the positions it holds. -/
def removePeer (t : UdpTunnel) (endpoint : UdpEndpoint) :
    UdpTunnel × List TunnelOutput :=
  match t.mEndpointToPeerIdx.find endpoint with
  | none => (t, [])
  | some idx =>
      let peers := t.mPeers.eraseIdx idx
      ({ t with
          remoteNodeIdToPeerIdx := erasePeerNodeIds t.remoteNodeIdToPeerIdx idx
          mPeers := peers
          mEndpointToPeerIdx := rebuildEndpointIndex peers },
        sendBye endpoint)

/-- The task that `acceptFn` posts. -/
def acceptPeer (t : UdpTunnel) (endpoint : UdpEndpoint) :
    UdpTunnel × List TunnelOutput :=
  { t with mPendingPeers := t.mPendingPeers.erase endpoint }.addPeer endpoint

/-- The task that `rejectFn` posts. -/
def rejectPeer (t : UdpTunnel) (endpoint : UdpEndpoint) :
    UdpTunnel × List TunnelOutput :=
  ({ t with
      mPendingPeers := t.mPendingPeers.erase endpoint
      mRejectedPeers := insert endpoint t.mRejectedPeers }, [])

/-! ## Forwarding into the tunnel -/

/-- The peer that a unicast or ping to a node is sent to: the peer at the
recorded position, if that position is in range and connected. -/
def route (t : UdpTunnel) (node : NodeId) : Option UdpEndpoint :=
  match t.remoteNodeIdToPeerIdx.find node with
  | some idx =>
      match t.mPeers[idx]? with
      | some peer => if peer.state = .connected then some peer.endpoint else none
      | none => none
  | none => none

/-- The endpoints that a message which passed the filter is sent to. -/
def recipients (t : UdpTunnel) (type : TunnelMessageType) (toNode : Option NodeId) :
    List UdpEndpoint :=
  if type.isRouted then
    match toNode with
    | some node => (t.route node).toList
    | none => []
  else (t.mPeers.filter (fun peer ↦ peer.state = .connected)).map PeerEntry.endpoint

/-- `UdpTunnel::forward`.  Messages that `encapsulate` refuses have already
been recorded in the cache. -/
def forward (t : UdpTunnel) (now : TimePoint) (type : TunnelMessageType)
    (fromNode : NodeId) (message : List UInt8) (toNode : Option NodeId) :
    UdpTunnel × List TunnelOutput :=
  match shouldForward t.mDedupCache now type fromNode message with
  | (false, cache) => ({ t with mDedupCache := cache }, [])
  | (true, cache) =>
      match encapsulate ⟨fromNode, type, toNode, 0⟩ message with
      | none => ({ t with mDedupCache := cache }, [])
      | some msg =>
          ({ t with mDedupCache := cache }, (t.recipients type toNode).map
            (sendRaw msg (encapsulatedSize type message.length)))

/-! ## Receiving -/

def handleUnknownPeer (t : UdpTunnel) (sender : UdpEndpoint) :
    UdpTunnel × List TunnelOutput :=
  if sender ∈ t.mRejectedPeers then (t, [])
  else if sender ∈ t.mPendingPeers then (t, [])
  else ({ t with mPendingPeers := insert sender t.mPendingPeers }, [.unknownPeer sender])

/-- The peer entry that `handleReceive` finds for an endpoint.  The index only
holds positions of `mPeers` (`Indexed.getElem?`), where `mPeers[idx]` is defined. -/
def peer? (t : UdpTunnel) (endpoint : UdpEndpoint) : Option (ℕ × PeerEntry) :=
  match t.mEndpointToPeerIdx.find endpoint with
  | some idx => (t.mPeers[idx]?).map (fun peer ↦ (idx, peer))
  | none => none

def setPeer (t : UdpTunnel) (idx : ℕ) (peer : PeerEntry) : UdpTunnel :=
  { t with mPeers := t.mPeers.set idx peer }

/-- The `TUNNEL_HELLO` case of `handleReceive`. -/
def handleHello (t : UdpTunnel) (now : TimePoint) (sender : UdpEndpoint) :
    UdpTunnel × List TunnelOutput :=
  match t.peer? sender with
  | none => t.handleUnknownPeer sender
  | some (idx, peer) =>
      (t.setPeer idx { peer with state := .connected, lastSeen := now },
        if peer.state = .connected then [] else sendHello sender)

def handleKeepalive (t : UdpTunnel) (now : TimePoint) (sender : UdpEndpoint) :
    UdpTunnel × List TunnelOutput :=
  match t.peer? sender with
  | none => (t, [])
  | some (idx, peer) =>
      if peer.state = .connected then (t.setPeer idx { peer with lastSeen := now }, [])
      else (t, [])

def handleBye (t : UdpTunnel) (sender : UdpEndpoint) : UdpTunnel × List TunnelOutput :=
  match t.peer? sender with
  | none => (t, [])
  | some (idx, peer) =>
      let t := t.setPeer idx { peer with state := .disconnected }
      ({ t with remoteNodeIdToPeerIdx := erasePeerNodeIds t.remoteNodeIdToPeerIdx idx },
        [])

/-- The data cases of `handleReceive`: `BYEBYE`, and every other type. -/
def handleData (t : UdpTunnel) (sender : UdpEndpoint) (message : LocalMessage) :
    UdpTunnel × List TunnelOutput :=
  match t.peer? sender with
  | none => (t, [])
  | some (idx, peer) =>
      if peer.state = .connected then
        ({ t with
            remoteNodeIdToPeerIdx :=
              if message.type = .byebye then
                t.remoteNodeIdToPeerIdx.erase message.fromNode
              else t.remoteNodeIdToPeerIdx.emplace message.fromNode idx },
          [.forwardLocally message])
      else (t, [])

def handleReceive (t : UdpTunnel) (now : TimePoint) (sender : UdpEndpoint)
    (buf : MessageBuffer) : UdpTunnel × List TunnelOutput :=
  match decapsulate buf with
  | none => (t, [])
  | some (context, payload) =>
      match context.type with
      | .tunnelHello => t.handleHello now sender
      | .tunnelKeepalive => t.handleKeepalive now sender
      | .tunnelBye => t.handleBye sender
      | type =>
          t.handleData sender ⟨type, context.fromNode, payload, context.size, context.toNode⟩

/-- The handler that `listen` installs: the datagram is copied into a zeroed
buffer first. -/
def receive (t : UdpTunnel) (now : TimePoint) (sender : UdpEndpoint)
    (datagram : Datagram) : UdpTunnel × List TunnelOutput :=
  t.handleReceive now sender (MessageBuffer.ofBytes datagram.bytes)

/-! ## Maintenance -/

def TimedOut (now : TimePoint) (peer : PeerEntry) : Prop :=
  peer.state = .connected ∧ kKeepaliveTimeout < now - peer.lastSeen

instance (now : TimePoint) (peer : PeerEntry) : Decidable (TimedOut now peer) :=
  inferInstanceAs (Decidable (_ ∧ _))

/-- The loop of `runMaintenance` from position `idx` on. -/
def maintainPeers (now : TimePoint) : ℕ → List PeerEntry → PartialMap NodeId ℕ →
    List PeerEntry × PartialMap NodeId ℕ × List TunnelOutput
  | _, [], routes => ([], routes, [])
  | idx, peer :: peers, routes =>
      match peer.state with
      | .connected =>
          if kKeepaliveTimeout < now - peer.lastSeen then
            let (peers, routes, out) :=
              maintainPeers now (idx + 1) peers (erasePeerNodeIds routes idx)
            ({ peer with state := .disconnected } :: peers, routes, out)
          else
            let (peers, routes, out) := maintainPeers now (idx + 1) peers routes
            (peer :: peers, routes, sendKeepalive peer.endpoint ++ out)
      | .disconnected | .connecting =>
          let (peers, routes, out) := maintainPeers now (idx + 1) peers routes
          ({ peer with state := .connecting } :: peers, routes,
            sendHello peer.endpoint ++ out)

def runMaintenance (t : UdpTunnel) (now : TimePoint) : UdpTunnel × List TunnelOutput :=
  if t.isRunning then
    let (peers, routes, out) := maintainPeers now 0 t.mPeers t.remoteNodeIdToPeerIdx
    ({ t with mPeers := peers, remoteNodeIdToPeerIdx := routes }, out)
  else (t, [])

/-- `UdpTunnel::stop_listening`, without the gateways. -/
def stopListening (t : UdpTunnel) : UdpTunnel × List TunnelOutput :=
  ({ t with
      isRunning := false
      mPendingPeers := ∅
      mRejectedPeers := ∅
      remoteNodeIdToPeerIdx := PartialMap.empty
      mEndpointToPeerIdx := PartialMap.empty },
    (t.mPeers.filter (fun peer ↦ peer.state = .connected)).flatMap
      (fun peer ↦ sendBye peer.endpoint))

/-! ## The tunnel as a machine -/

end UdpTunnel

/-- What can happen to a running tunnel.  Posted tasks and decisions on unknown
peers are events of their own: they may run at any later time. -/
inductive TunnelEvent where
  | receive (now : TimePoint) (sender : UdpEndpoint) (datagram : Datagram)
  | runMaintenance (now : TimePoint)
  | addPeer (endpoint : UdpEndpoint)
  | removePeer (endpoint : UdpEndpoint)
  | acceptPeer (endpoint : UdpEndpoint)
  | rejectPeer (endpoint : UdpEndpoint)
  | forward (now : TimePoint) (type : TunnelMessageType) (fromNode : NodeId)
      (message : List UInt8) (toNode : Option NodeId)
deriving DecidableEq

namespace UdpTunnel

def machine : EventMachine.Machine UdpTunnel TunnelEvent TunnelOutput
  | t, .receive now sender datagram => t.receive now sender datagram
  | t, .runMaintenance now => t.runMaintenance now
  | t, .addPeer endpoint => t.addPeer endpoint
  | t, .removePeer endpoint => t.removePeer endpoint
  | t, .acceptPeer endpoint => t.acceptPeer endpoint
  | t, .rejectPeer endpoint => t.rejectPeer endpoint
  | t, .forward now type fromNode message toNode =>
      t.forward now type fromNode message toNode

end UdpTunnel

end LinkExtender
