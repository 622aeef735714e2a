import LinkExtender.Tunnel
import LinkExtender.Library.Machine

/-!
# The shared-memory tunnel

`ShmTunnel`: every client owns a slot of the shared segment with a mailbox in
it.  A client is modelled with the members it keeps to itself; the messages it
pops from its mailbox are events and what it pushes into the others' mailboxes
are outputs.
-/

namespace LinkExtender

def maxClients : ℕ := 5

inductive TunnelClientState where
  | unknown
  | hello
  | connected
deriving DecidableEq

inductive ShmOutput where
  | push (clientIdx source : ℕ) (msg : MessageBuffer)
  | forwardLocally (message : LocalMessage)
deriving DecidableEq

structure ShmTunnel where
  mDedupCache : DedupCache
  mClientId : ℕ
  isRunning : Bool
  remoteNodeIdToTunnelClientIdx : PartialMap NodeId ℕ
  tunnelClientStates : PartialMap ℕ TunnelClientState

namespace ShmTunnel

/-- The members of a client that has been given the slot `mClientId`. -/
def create (mClientId : ℕ) : ShmTunnel where
  mDedupCache := DedupCache.initial
  mClientId := mClientId
  isRunning := true
  remoteNodeIdToTunnelClientIdx := PartialMap.empty
  tunnelClientStates := PartialMap.empty

/-! ## Forwarding into the tunnel -/

/-- The clients whose mailboxes a message is pushed into. -/
def recipients (t : ShmTunnel) (type : TunnelMessageType) (toNode : Option NodeId) :
    List ℕ :=
  if type.isRouted then
    match toNode with
    | some node => (t.remoteNodeIdToTunnelClientIdx.find node).toList
    | none => []
  else (List.range maxClients).filter (fun clientIdx ↦ clientIdx ≠ t.mClientId)

def forward (t : ShmTunnel) (now : TimePoint) (type : TunnelMessageType)
    (fromNode : NodeId) (message : List UInt8) (toNode : Option NodeId) :
    ShmTunnel × List ShmOutput :=
  match shouldForward t.mDedupCache now type fromNode message with
  | (false, cache) => ({ t with mDedupCache := cache }, [])
  | (true, cache) =>
      match encapsulate ⟨fromNode, type, toNode, 0⟩ message with
      | none => ({ t with mDedupCache := cache }, [])
      | some msg =>
          ({ t with mDedupCache := cache },
            (t.recipients type toNode).map
              (fun clientIdx ↦ .push clientIdx t.mClientId msg))

/-- `say_in_tunnel` to one client. -/
def sayInTunnel (t : ShmTunnel) (type : TunnelMessageType) (msg : String)
    (toTunnelClientIdx : ℕ) : List ShmOutput :=
  let bytes := msg.toList.map (fun c ↦ UInt8.ofNat c.toNat)
  match encapsulate ⟨default, type, none, 0⟩ bytes with
  | some msg => [.push toTunnelClientIdx t.mClientId msg]
  | none => []

/-! ## Receiving -/

/-- The `TUNNEL_HELLO` case of `listen`. -/
def handleHello (t : ShmTunnel) (source : ℕ) : ShmTunnel × List ShmOutput :=
  match t.tunnelClientStates.find source with
  | none =>
      ({ t with tunnelClientStates := t.tunnelClientStates.insert source .hello },
        t.sayInTunnel .tunnelHello "ello" source)
  | some _ =>
      ({ t with tunnelClientStates := t.tunnelClientStates.insert source .connected },
        [])

/-- One turn of the loop in `listen`, with the message that `pop` returned. -/
def handlePopped (t : ShmTunnel) (source : ℕ) (msg : MessageBuffer) :
    ShmTunnel × List ShmOutput :=
  if t.isRunning then
    match decapsulate msg with
    | none => (t, [])
    | some (context, payload) =>
        match context.type with
        | .tunnelHello => t.handleHello source
        | .tunnelBye =>
            ({ t with tunnelClientStates := t.tunnelClientStates.erase source }, [])
        | .byebye =>
            -- unlike the UDP tunnel's, this branch ends without `forward_locally`
            ({ t with
                remoteNodeIdToTunnelClientIdx :=
                  t.remoteNodeIdToTunnelClientIdx.erase context.fromNode }, [])
        | type =>
            ({ t with
                remoteNodeIdToTunnelClientIdx :=
                  t.remoteNodeIdToTunnelClientIdx.emplace context.fromNode source },
              [.forwardLocally
                ⟨type, context.fromNode, payload, context.size, context.toNode⟩])
  else (t, [])

end ShmTunnel

/-- What can happen to a client: a turn of the loop in `listen`, or a call of
`forward`. -/
inductive ShmTunnelEvent where
  | popped (source : ℕ) (msg : MessageBuffer)
  | forward (now : TimePoint) (type : TunnelMessageType) (fromNode : NodeId)
      (message : List UInt8) (toNode : Option NodeId)
deriving DecidableEq

namespace ShmTunnel

def machine : EventMachine.Machine ShmTunnel ShmTunnelEvent ShmOutput
  | t, .popped source msg => t.handlePopped source msg
  | t, .forward now type fromNode message toNode =>
      t.forward now type fromNode message toNode

end ShmTunnel

end LinkExtender
