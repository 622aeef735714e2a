import LinkExtender.Site
import LinkExtender.TunnelGateway.Measurements

/-!
# Measurement bookkeeping of a site

The conditions on the single gateways, over all gateways and every run of the site.
-/

namespace LinkExtender

namespace Site

open EventMachine

variable {link : LinkLibrary}

def noteMinted (link : LinkLibrary) (minted : ℕ → List NodeId) (s : Site)
    (e : SiteEvent) (i : ℕ) : List NodeId :=
  match s.gateways[i]?, s.eventAt i e with
  | some g, some ge => TunnelGateway.noteMinted link (minted i) g ge
  | _, _ => minted i

/-- At every gateway, the minted nodes that are still recorded and the nodes with a
measurement surrogate have pending entries. -/
def MeasurementsPending (p : Site × (ℕ → List NodeId)) : Prop :=
  ∀ (i : ℕ) (g : TunnelGateway), p.1.gateways[i]? = some g →
    g.LocalPending (p.2 i) ∧ g.RemotePending

/-- Every gateway that sees the event meets its two conditions. -/
def KeepsPending (link : LinkLibrary) (p : Site × (ℕ → List NodeId)) (e : SiteEvent) :
    Prop :=
  ∀ (i : ℕ) (g : TunnelGateway) (ge : GatewayEvent), p.1.gateways[i]? = some g →
    p.1.eventAt i e = some ge →
    g.KeepsLocalPending link (p.2 i) ge ∧ g.KeepsRemotePending link ge

theorem measurementsPending_next_iff {p : Site × (ℕ → List NodeId)}
    (h : MeasurementsPending p) (e : SiteEvent) :
    MeasurementsPending (next (monitored (machine link) (noteMinted link)) p e) ↔
      KeepsPending link p e := by
  rw [next_monitored]
  constructor
  · intro hnext i g ge hg he
    have hg' : (next (machine link) p.1 e).gateways[i]? =
        some (next (TunnelGateway.machine link) g ge) := by
      rw [getElem?_gateways_next, hg, he]
      rfl
    obtain ⟨hlocal, hremote⟩ := hnext i _ hg'
    simp only [noteMinted, hg, he] at hlocal
    obtain ⟨hl, hr⟩ := h i g hg
    exact ⟨(TunnelGateway.localPending_next_iff hl ge).mp hlocal,
      (TunnelGateway.remotePending_next_iff hr ge).mp hremote⟩
  · intro hkeeps i g' hg'
    rw [getElem?_gateways_next] at hg'
    obtain ⟨g, hg, rfl⟩ := Option.map_eq_some_iff.mp hg'
    obtain ⟨hl, hr⟩ := h i g hg
    cases he : p.1.eventAt i e with
    | none => simpa only [noteMinted, hg, he, Option.elim_none] using And.intro hl hr
    | some ge =>
        obtain ⟨hlocal, hremote⟩ := hkeeps i g ge hg he
        simp only [noteMinted, hg, he, Option.elim_some]
        exact ⟨(TunnelGateway.localPending_next_iff hl ge).mpr hlocal,
          (TunnelGateway.remotePending_next_iff hr ge).mpr hremote⟩

theorem measurementsPending_create (initialPeers : List UdpEndpoint)
    (interfaces : List IpAddress) :
    MeasurementsPending (create initialPeers interfaces, fun _ ↦ []) := by
  intro i g hg
  obtain ⟨interface, -, rfl⟩ : ∃ interface, interfaces[i]? = some interface ∧
      TunnelGateway.create interface = g := by
    simpa [create] using hg
  constructor
  · intro node hnode
    cases hnode
  · intro node hnode
    simp [TunnelGateway.hasMeasurementSurrogate, TunnelGateway.create] at hnode

/-- The bookkeeping is reclaimable in every state that a run passes through exactly
when all of its events meet the condition. -/
theorem throughout_measurementsPending_iff (link : LinkLibrary)
    (initialPeers : List UdpEndpoint) (interfaces : List IpAddress)
    (es : List SiteEvent) :
    Throughout (monitored (machine link) (noteMinted link)) MeasurementsPending
        (create initialPeers interfaces, fun _ ↦ []) es ↔
      Along (monitored (machine link) (noteMinted link)) (KeepsPending link)
        (create initialPeers interfaces, fun _ ↦ []) es :=
  throughout_iff_along_of_next_iff _ (I := MeasurementsPending)
    (fun _ e h ↦ measurementsPending_next_iff h e)
    (measurementsPending_create initialPeers interfaces) es

/-! ## One ping each way -/

def drawnNode : NodeId := ⟨List.replicate 8 7, rfl⟩

def pingMessage : List UInt8 :=
  LinkLibrary.pingHeader ++ ([0x5f, 0x5f, 0x68, 0x74, 0, 0, 0, 8] ++ List.replicate 8 0)

/-- The zero node is announced through the tunnel, and a socket pings its
surrogate. -/
def pingFromLan : List SiteEvent :=
  [.tunnel (.receive 0 (localhost 1) (UdpTunnel.controlDatagram .tunnelHello))
      (fun _ ↦ TunnelGateway.openSockets 10000),
    .tunnel (.receive 0 (localhost 1)
        ⟨tunnelHeader .broadcast default none 20 ++
          LinkLibrary.discoveryMessage 1 5 default [], by decide⟩)
      (fun _ ↦ TunnelGateway.openSockets 10000),
    .lan 0 0 (.measurementSocket default (localhost 5000) ⟨pingMessage, by decide⟩ drawnNode)
      0]

/-- The zero node is announced on the local network, and pinged through the
tunnel by a node made up at the other site. -/
def pingFromTunnel : List SiteEvent :=
  [.tunnel (.receive 0 (localhost 1) (UdpTunnel.controlDatagram .tunnelHello))
      (fun _ ↦ TunnelGateway.openSockets 10000),
    .lan 0 0 (.multicast TunnelGateway.kSameSubnetPeer
      ⟨LinkLibrary.discoveryMessage 1 5 default
        (LinkLibrary.endpointEntry (localhost 20809)), by decide⟩) 0,
    .tunnel (.receive 0 (localhost 1)
        ⟨tunnelHeader .measurementPing drawnNode (some default) pingMessage.length ++
          pingMessage, by decide⟩)
      (fun _ ↦ TunnelGateway.openSockets 10000)]

def anHourLater : List SiteEvent :=
  [.lan 0 (seconds 3600) .localTimer 0, .lan 0 (seconds 3600) .remoteTimer 0]

def oneGateway : Site × (ℕ → List NodeId) :=
  (create [localhost 1] [TunnelGateway.kLocalIfAddr], fun _ ↦ [])

/-- One ping leaves an entry without a timeout at the gateway it reaches from the
local network, and a socket without one at the gateway it reaches through the
tunnel; neither is released later. -/
theorem not_throughout_measurementsPending :
    (¬ Throughout (monitored (machine .version1) (noteMinted .version1))
        MeasurementsPending oneGateway pingFromLan ∧
      ∀ g ∈ (run (machine .version1) oneGateway.1
          (pingFromLan ++ anHourLater)).gateways[0]?,
        g.hasLocalNode drawnNode = true) ∧
    (¬ Throughout (monitored (machine .version1) (noteMinted .version1))
        MeasurementsPending oneGateway pingFromTunnel ∧
      ∀ g ∈ (run (machine .version1) oneGateway.1
          (pingFromTunnel ++ anHourLater)).gateways[0]?,
        g.hasMeasurementSurrogate drawnNode = true) := by
  have hlan : ¬ ∀ g ∈ (run (monitored (machine .version1) (noteMinted .version1))
      oneGateway pingFromLan).1.gateways[0]?, drawnNode ∈ g.mLocalTracker.ids := by
    decide +kernel
  have hentry : ∀ g ∈ (run (monitored (machine .version1) (noteMinted .version1))
      oneGateway pingFromLan).1.gateways[0]?, g.hasLocalNode drawnNode = true := by
    decide +kernel
  have htunnel : ¬ ∀ g ∈ (run (monitored (machine .version1) (noteMinted .version1))
      oneGateway pingFromTunnel).1.gateways[0]?, drawnNode ∈ g.mRemoteTracker.ids := by
    decide +kernel
  have hsocket : ∀ g ∈ (run (monitored (machine .version1) (noteMinted .version1))
      oneGateway pingFromTunnel).1.gateways[0]?,
        g.hasMeasurementSurrogate drawnNode = true := by
    decide +kernel
  refine ⟨⟨?_, by decide +kernel⟩, ⟨?_, by decide +kernel⟩⟩
  · intro h
    apply hlan
    intro g hg
    exact (h.last 0 g hg).1 drawnNode (by decide +kernel) (Or.inl (hentry g hg))
  · intro h
    apply htunnel
    intro g hg
    exact (h.last 0 g hg).2 drawnNode (hsocket g hg)

end Site

end LinkExtender
