import LinkExtender.ShmTunnel.Delivery
import LinkExtender.Site.Traffic

/-!
# Sites on one segment

The clients of a segment with the gateways that are registered with them, until one of
them stops listening.  Mailboxes keep the order, and a gateway makes one datagram of one
call.  So what a gateway puts out for the messages of a client was read by the gateways
of that client before, in the same order.
-/

namespace LinkExtender

open EventMachine

structure ShmSites where
  segment : ShmSegment
  /-- The gateways of each client. -/
  gateways : ℕ → List TunnelGateway

inductive ShmSitesEvent where
  | construct (slot numClients : ℕ)
  /-- A gateway of the interface, which the client does not have yet. -/
  | addGateway (slot : ℕ) (interfaceAddress : IpAddress)
  | push (slot : ℕ)
  /-- One turn of `listen`, with what gateway `i` meets in `ios i`. -/
  | listen (slot : ℕ) (ios : ℕ → LocalIo)
  /-- An event on the side of gateway `i`, for which the client's thread has to be free. -/
  | lan (slot i : ℕ) (now : TimePoint) (e : LanEvent) (steadyNow : TimePoint)

namespace ShmSites

variable {link : LinkLibrary}

def initial : ShmSites where
  segment := ShmSegment.initial
  gateways := fun _ ↦ []

/-- A call of `forward`, as an event of the segment. -/
def forwardEvent? (slot : ℕ) (steadyNow : TimePoint) : GatewayOutput → Option ShmSegmentEvent
  | .forward call =>
      some (.forward slot steadyNow call.type call.fromNode call.message call.toNode)
  | _ => none

theorem filterMap_forwardEvent? (slot : ℕ) (steadyNow : TimePoint) (out : List GatewayOutput) :
    out.filterMap (forwardEvent? slot steadyNow) = (out.filterMap GatewayOutput.call?).map
      (fun call ↦ .forward slot steadyNow call.type call.fromNode call.message call.toNode) := by
  rw [List.map_filterMap]
  apply List.filterMap_congr
  intro o _
  cases o <;> rfl

def isFree (s : ShmSites) (slot : ℕ) : Bool := (s.segment.client slot).pushes.isEmpty

def listen (link : LinkLibrary) (s : ShmSites) (slot : ℕ) (ios : ℕ → LocalIo) :
    ShmSites × List (ℕ × SiteOutput) :=
  let (segment, messages) := s.segment.listen slot
  let (gateways, out) := Site.deliver link ios (s.gateways slot)
    (messages.map (fun m ↦ .forwardLocally m.2))
  (⟨segment, Function.update s.gateways slot gateways⟩, out.map (Prod.mk slot))

def lan (link : LinkLibrary) (s : ShmSites) (slot i : ℕ) (now : TimePoint) (e : LanEvent)
    (steadyNow : TimePoint) : ShmSites × List (ℕ × SiteOutput) :=
  if s.isFree slot then
    match (s.gateways slot)[i]? with
    | none => (s, [])
    | some g =>
        let (g, out) := g.lanStep link now e
        (⟨run ShmSegment.machine s.segment (out.filterMap (forwardEvent? slot steadyNow)),
            Function.update s.gateways slot ((s.gateways slot).set i g)⟩,
          out.map (fun o ↦ (slot, .gateway i o)))
  else (s, [])

def machine (link : LinkLibrary) : Machine ShmSites ShmSitesEvent (ℕ × SiteOutput)
  | s, .construct slot numClients =>
      (⟨s.segment.construct slot numClients, Function.update s.gateways slot []⟩, [])
  | s, .addGateway slot interfaceAddress =>
      (⟨s.segment, Function.update s.gateways slot
          (s.gateways slot ++ [TunnelGateway.create interfaceAddress])⟩, [])
  | s, .push slot => ({ s with segment := s.segment.push slot }, [])
  | s, .listen slot ios => s.listen link slot ios
  | s, .lan slot i now e steadyNow => s.lan link slot i now e steadyNow

/-- What the gateways of `source` read from their local networks. -/
def read (source : ℕ) (s : ShmSites) : ShmSitesEvent → List Datagram
  | .lan slot i _ e _ =>
      if slot = source ∧ s.isFree slot = true ∧ i < (s.gateways slot).length then
        (TunnelGateway.datagram? e).toList
      else []
  | _ => []

/-- What gateway `j` of `dest` puts out for a message of `source`. -/
def putOut (link : LinkLibrary) (source dest j : ℕ) (s : ShmSites) :
    ShmSitesEvent → List (UdpEndpoint × List UInt8 × UdpEndpoint)
  | .listen slot ios =>
      if slot = dest ∧ (s.segment.popped slot).map Prod.fst = some source then
        TunnelGateway.datagrams (Site.outputsAt j
          ((emit (machine link) s (.listen slot ios)).map Prod.snd))
      else []
  | _ => []

/-- What a gateway reads leaves room for a header. -/
def Fits : ShmSitesEvent → Prop
  | .lan _ _ _ e _ => ∀ datagram ∈ TunnelGateway.datagram? e,
      encapsulatedSize .unicast datagram.bytes.length ≤ kMaxMessageSize
  | _ => True

/-! ## A run of sites is a run of the segment -/

instance : ∀ e, Decidable (Fits e)
  | .lan _ _ _ e _ => inferInstanceAs (Decidable (∀ datagram ∈ TunnelGateway.datagram? e,
      encapsulatedSize .unicast datagram.bytes.length ≤ kMaxMessageSize))
  | .construct .. | .addGateway .. | .push _ | .listen .. => isTrue trivial

/-- A node is heard at the first client, between the greetings of the second. -/
def greeted : List ShmSitesEvent :=
  [.construct 0 1, .addGateway 0 TunnelGateway.kLocalIfAddr, .construct 1 2,
    .addGateway 1 TunnelGateway.kLocalIfAddr, .push 1,
    .lan 0 0 0 (.multicast TunnelGateway.kSameSubnetPeer
      ⟨LinkLibrary.discoveryMessage 1 5 default [] ++ LinkLibrary.endpointEntry (localhost 20809),
        by decide⟩) 0,
    .push 0, .push 0, .push 0, .push 0, .listen 1 (fun _ ↦ TunnelGateway.openSockets 20000)]

end ShmSites

end LinkExtender
