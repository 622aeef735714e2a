import LinkExtender.Site.Joined
import LinkExtender.Site.Measurements
import LinkExtender.TunnelGateway.Keys

/-!
# Pongs come back from the node that was pinged

A ping leaves its site under an id that is made up for its socket, and is handed to the
node by a surrogate of that id.  The pong finds its way back by two table lookups, one
for its sender and one for the id.
-/

namespace LinkExtender

open EventMachine
open Handshake (Side)

/-- The endpoint without its scope, which is local to each host. -/
def UdpEndpoint.unscoped (endpoint : UdpEndpoint) : UdpEndpoint :=
  match endpoint.address with
  | .v4 _ => endpoint
  | .v6 bytes _ => ⟨.v6 bytes 0, endpoint.port⟩

theorem TunnelGateway.unscoped_localEndpoint {g : TunnelGateway} {endpoint dest : UdpEndpoint}
    (h : g.localEndpoint endpoint = some dest) : dest.unscoped = endpoint.unscoped := by
  unfold localEndpoint at h
  split at h
  · rw [Option.some.inj h]
  · rename_i bytes scopeId _ _ haddress _
    obtain rfl := Option.some.inj h
    simp only [UdpEndpoint.unscoped, haddress]
  · cases h

namespace Sites

open SiteStep
open TunnelGateway (isMeasurement portKind)

variable {link : LinkLibrary}

/-- Side `x` has taken a step that meets `P`. -/
def Seen (past : List SiteStep) (x : Side) (P : SiteStep → Prop) : Prop :=
  ∃ u ∈ past, u.side = x ∧ P u

theorem Seen.mono {past past' : List SiteStep} (hsubset : past ⊆ past') {x : Side}
    {P : SiteStep → Prop} (h : Seen past x P) : Seen past' x P := by
  obtain ⟨u, hu, hP⟩ := h
  exact ⟨u, hsubset hu, hP⟩

/-! ## The surroundings -/

/-- An id that is made up was not made up or announced before, and no node announces
it later. -/
def FreshIds (link : LinkLibrary) (past : List SiteStep) (w : SiteStep) : Prop :=
  ∀ u ∈ past,
    (∀ m ∈ mints link w, (∀ b ∈ mints link u, b.2.node ≠ m.2.node) ∧
      ∀ b ∈ announcements link u, b.2.node ≠ m.2.node) ∧
    ∀ a ∈ announcements link w, ∀ b ∈ mints link u, b.2.node ≠ a.2.node

/-- No two nodes of a site announce one measurement endpoint. -/
def OwnEndpoints (link : LinkLibrary) (past : List SiteStep) (w : SiteStep) : Prop :=
  ∀ u ∈ past, u.side = w.side → ∀ a ∈ announcements link w, ∀ b ∈ announcements link u,
    b.2.endpoint.unscoped = a.2.endpoint.unscoped → b.2.node = a.2.node

/-- A socket that sends pings is not an announced endpoint, neither earlier nor later. -/
def PingSockets (link : LinkLibrary) (past : List SiteStep) (w : SiteStep) : Prop :=
  ∀ u ∈ past, u.side = w.side →
    (∀ t ∈ transfers link w, t.2.call.type = .measurementPing →
      ∀ b ∈ announcements link u, b.2.endpoint.unscoped ≠ t.2.sender.unscoped) ∧
    ∀ a ∈ announcements link w, ∀ t ∈ transfers link u, t.2.call.type = .measurementPing →
      a.2.endpoint.unscoped ≠ t.2.sender.unscoped

/-- A measurement surrogate, which sends pings too, does not share its socket with
another port, and its socket is not used again. -/
def OwnSockets (link : LinkLibrary) (past : List SiteStep) (w : SiteStep) : Prop :=
  (∀ p ∈ openings link w, ∀ q ∈ openings link w, p.2.kind = .measurement →
    q.2.socket = p.2.socket → q = p) ∧
  ∀ u ∈ past, u.side = w.side → ∀ p ∈ openings link w, ∀ q ∈ openings link u,
    p.2.kind = .measurement ∨ q.2.kind = .measurement → q.2.socket ≠ p.2.socket

/-- The node has announced the endpoint on side `x`. -/
def Announced (link : LinkLibrary) (past : List SiteStep) (x : Side) (node : NodeId)
    (endpoint : UdpEndpoint) : Prop :=
  Seen past x fun u ↦ ∃ a ∈ announcements link u, a.2.node = node ∧
    a.2.endpoint.unscoped = endpoint.unscoped

/-- A pong comes from an endpoint that a node has announced, to the socket from which
a ping was sent to an endpoint of that node. -/
def PongSenders (link : LinkLibrary) (past : List SiteStep) (w : SiteStep) : Prop :=
  ∀ t ∈ transfers link w, t.2.call.type = .measurementPong →
    ∃ v ∈ past, v.side = w.side ∧ ∃ a ∈ announcements link v,
      a.2.endpoint.unscoped = t.2.sender.unscoped ∧
      ∃ u ∈ past, u.side = w.side ∧ ∃ h ∈ handovers link u,
        h.message.type = .measurementPing ∧ h.source = t.2.port.socket ∧
        Announced link past w.side a.2.node h.dest

/-- `u` sends over the tunnel what `w` receives. -/
def Carries (link : LinkLibrary) (u w : SiteStep) : Prop :=
  ∃ datagram ∈ w.received?, datagram.bytes ∈ tunnelled link u

/-- What comes out of the tunnel was sent by the other site. -/
def FromOtherSide (link : LinkLibrary) (past : List SiteStep) (w : SiteStep) : Prop :=
  ∀ datagram ∈ w.received?, ∃ u ∈ past, u.side = w.side.other ∧
    datagram.bytes ∈ tunnelled link u

structure Plausible (link : LinkLibrary) (past : List SiteStep) (w : SiteStep) : Prop where
  fresh : FreshIds link past w
  endpoints : OwnEndpoints link past w
  pings : PingSockets link past w
  sockets : OwnSockets link past w
  pongs : PongSenders link past w
  tunnel : FromOtherSide link past w

/-! ## The way of a pong -/

/-- `ping` comes to the gateway in `x`, is handed over as `delivered` in `y`, and its
answer comes back in `z` to be handed over as `pong` in `w`. -/
structure RoundTrip (link : LinkLibrary) (before after : List SiteStep) (x y z w : SiteStep)
    (pong : Handover) (ping : Transfer) (delivered : Handover) (answer : Transfer) :
    Prop where
  /-- The socket that the pong is sent to has pinged the surrogate, at the gateway. -/
  asked : (pong.gateway, ping) ∈ transfers link x ∧ ping.call.type = .measurementPing ∧
    ping.port.kind = .node ∧ ping.port.node = pong.message.fromNode ∧
    ping.sender.unscoped = pong.dest.unscoped
  /-- The ping went to an endpoint that the node had announced. -/
  reached : Carries link x y ∧ delivered ∈ handovers link y ∧
    delivered.message.type = .measurementPing ∧
    delivered.message.fromNode = ping.call.fromNode ∧
    delivered.message.toNode = some pong.message.fromNode ∧
    Announced link before y.side pong.message.fromNode delivered.dest
  /-- The pong came from an endpoint of the node, to the socket that had sent the
  ping, and is what is handed over. -/
  replied : (delivered.gateway, answer) ∈ transfers link z ∧
    answer.call.type = .measurementPong ∧ answer.port.socket = delivered.source ∧
    Announced link (before ++ y :: after) z.side pong.message.fromNode answer.sender ∧
    Carries link z w

/-- Every pong that is handed over has made its round trip. -/
def Answered (link : LinkLibrary) (past : List SiteStep) (w : SiteStep) : Prop :=
  ∀ pong ∈ handovers link w, pong.message.type = .measurementPong →
    ∃ before y after x z, past = before ++ y :: after ∧ x ∈ before ∧ z ∈ after ∧
      x.side = w.side ∧ y.side = w.side.other ∧ z.side = w.side.other ∧
      ∃ ping delivered answer, RoundTrip link before after x y z w pong ping delivered answer

/-! ## What plausible steps have in common -/

variable {past : List SiteStep}

/-- One id is made up once. -/
theorem mint_unique (h : History.Each (Plausible link) past) {u v : SiteStep} (hu : u ∈ past)
    (hv : v ∈ past) {i j : ℕ} {b c : Binding} (hb : (i, b) ∈ mints link u)
    (hc : (j, c) ∈ mints link v) (hnode : b.node = c.node) :
    u.side = v.side ∧ i = j ∧ b = c := by
  rcases h.comparable hu hv with rfl | ⟨before, hbefore, hP⟩ | ⟨before, hbefore, hP⟩
  · exact ⟨rfl, mints_subsingleton hb hc⟩
  · exact absurd hnode (((hP.fresh u hbefore).1 _ hc).1 _ hb)
  · exact absurd hnode.symm (((hP.fresh v hbefore).1 _ hb).1 _ hc)

/-- No node that announces itself has a made-up id. -/
theorem mint_ne_announcement (h : History.Each (Plausible link) past) {u v : SiteStep}
    (hu : u ∈ past) (hv : v ∈ past) {i j : ℕ} {b c : Binding} (hb : (i, b) ∈ mints link u)
    (hc : (j, c) ∈ announcements link v) : b.node ≠ c.node := by
  rcases h.comparable hu hv with rfl | ⟨before, hbefore, hP⟩ | ⟨before, hbefore, hP⟩
  · exact absurd hb (notMem_mints_of_announcements hc)
  · exact (hP.fresh u hbefore).2 _ hc _ hb
  · exact (((hP.fresh v hbefore).1 _ hb).2 _ hc).symm

theorem announcement_unique (h : History.Each (Plausible link) past) {u v : SiteStep}
    (hu : u ∈ past) (hv : v ∈ past) (hside : u.side = v.side) {i j : ℕ} {b c : Binding}
    (hb : (i, b) ∈ announcements link u) (hc : (j, c) ∈ announcements link v)
    (hendpoint : b.endpoint.unscoped = c.endpoint.unscoped) : b.node = c.node := by
  rcases h.comparable hu hv with rfl | ⟨before, hbefore, hP⟩ | ⟨before, hbefore, hP⟩
  · rw [announcements_subsingleton hb hc]
  · exact hP.endpoints u hbefore hside _ hc _ hb hendpoint
  · exact (hP.endpoints v hbefore hside.symm _ hb _ hc hendpoint.symm).symm

/-- A socket for which an id is made up is not an announced endpoint. -/
theorem mint_endpoint_ne (h : History.Each (Plausible link) past) {u v : SiteStep}
    (hu : u ∈ past) (hv : v ∈ past) (hside : u.side = v.side) {i j : ℕ} {b c : Binding}
    (hb : (i, b) ∈ mints link u) (hc : (j, c) ∈ announcements link v) :
    b.endpoint.unscoped ≠ c.endpoint.unscoped := by
  obtain ⟨g, ge, hg, hevent, hread⟩ := mem_readings.mp hb
  obtain ⟨t, ht, htype, hsender⟩ := TunnelGateway.transfer?_of_mint? hread
  have htransfer : (i, t) ∈ transfers link u := mem_readings.mpr ⟨g, ge, hg, hevent, ht⟩
  rw [← hsender]
  rcases h.comparable hu hv with rfl | ⟨before, hbefore, hP⟩ | ⟨before, hbefore, hP⟩
  · exact absurd hb (notMem_mints_of_announcements hc)
  · exact ((hP.pings u hbefore hside).2 _ hc _ htransfer htype).symm
  · exact ((hP.pings v hbefore hside.symm).1 _ htransfer htype _ hc).symm

/-- The socket of a measurement surrogate has no other port. -/
theorem opening_unique (h : History.Each (Plausible link) past) {u v : SiteStep}
    (hu : u ∈ past) (hv : v ∈ past) (hside : u.side = v.side) {i j : ℕ} {p q : Port}
    (hp : (i, p) ∈ openings link u) (hq : (j, q) ∈ openings link v)
    (hkind : p.kind = .measurement) (hsocket : p.socket = q.socket) : i = j ∧ p = q := by
  rcases h.comparable hu hv with rfl | ⟨before, hbefore, hP⟩ | ⟨before, hbefore, hP⟩
  · obtain ⟨before, rest, -, hP⟩ := h.exists_split hu
    obtain ⟨rfl, rfl⟩ := Prod.mk.inj (hP.sockets.1 _ hp _ hq hkind hsocket.symm)
    exact ⟨rfl, rfl⟩
  · exact absurd hsocket (hP.sockets.2 u hbefore hside _ hq _ hp (Or.inr hkind))
  · exact absurd hsocket.symm (hP.sockets.2 v hbefore hside.symm _ hp _ hq (Or.inl hkind))

/-! ## Where the tables come from -/

/-- Gateway `i` of side `x` has recorded the binding. -/
def Recorded (link : LinkLibrary) (past : List SiteStep) (x : Side) (i : ℕ) (b : Binding) :
    Prop :=
  Seen past x fun u ↦ (i, b) ∈ announcements link u ∨ (i, b) ∈ mints link u

def Opened (link : LinkLibrary) (past : List SiteStep) (x : Side) (i : ℕ) (p : Port) : Prop :=
  Seen past x fun u ↦ (i, p) ∈ openings link u

/-- The id was made up on side `x`. -/
def Minted (link : LinkLibrary) (past : List SiteStep) (x : Side) (node : NodeId) : Prop :=
  Seen past x fun u ↦ ∃ m ∈ mints link u, m.2.node = node

/-- What gateway `i` of side `x` holds stems from the steps so far, and its measurement
surrogates are of ids that the other side has made up. -/
structure Founded (link : LinkLibrary) (past : List SiteStep) (x : Side) (i : ℕ)
    (g : TunnelGateway) : Prop where
  endpoints : ∀ node endpoints, g.localNodeIdToEndpointMap.find node = some endpoints →
    Recorded link past x i ⟨node, endpoints.measurementEndpoint⟩
  keys : ∀ key node, g.localMeasurementEndpointToNodeId.find key = some node →
    ∃ endpoint, TunnelGateway.createKeyFromEndpoint link endpoint = key ∧
      Recorded link past x i ⟨node, endpoint⟩
  ports : ∀ p : Port, g.socketOf p.kind p.node = some p.socket → Opened link past x i p
  minted : ∀ node socket, g.socketOf .measurement node = some socket →
    Minted link past x.other node

theorem Founded.concat {x : Side} {i : ℕ} {g : TunnelGateway} (h : Founded link past x i g)
    (w : SiteStep) : Founded link (past ++ [w]) x i g := by
  have hsubset : past ⊆ past ++ [w] := List.subset_append_left past [w]
  refine ⟨?_, ?_, ?_, ?_⟩
  · intro node endpoints hfind
    exact (h.endpoints node endpoints hfind).mono hsubset
  · intro key node hfind
    obtain ⟨endpoint, hkey, hrecorded⟩ := h.keys key node hfind
    exact ⟨endpoint, hkey, hrecorded.mono hsubset⟩
  · intro p hsocket
    exact (h.ports p hsocket).mono hsubset
  · intro node socket hsocket
    exact (h.minted node socket hsocket).mono hsubset

def AllFounded (link : LinkLibrary) (past : List SiteStep) (s : Sites) : Prop :=
  ∀ (x : Side) (i : ℕ) (g : TunnelGateway), (s x).gateways[i]? = some g →
    Founded link past x i g

theorem founded_next {w : SiteStep} {i : ℕ} {g : TunnelGateway} {ge : GatewayEvent}
    (h : Founded link past w.side i g) (hg : w.site.gateways[i]? = some g)
    (hevent : w.site.eventAt i w.event = some ge)
    (hminted : ∀ p ∈ openings link w, p.2.kind = .measurement →
      Minted link past w.side.other p.2.node) :
    Founded link (past ++ [w]) w.side i (next (TunnelGateway.machine link) g ge) := by
  have hrecorded {b : Binding} (hb : g.Records link ge b) :
      Recorded link (past ++ [w]) w.side i b := by
    refine ⟨w, List.mem_append_right _ (List.mem_singleton_self w), rfl, ?_⟩
    apply hb.imp
    · intro hread
      exact mem_readings.mpr ⟨g, ge, hg, hevent, hread⟩
    · intro hread
      exact mem_readings.mpr ⟨g, ge, hg, hevent, hread⟩
  have hopening {p : Port} (hp : g.opening? link ge = some p) : (i, p) ∈ openings link w :=
    mem_readings.mpr ⟨g, ge, hg, hevent, hp⟩
  have hold := h.concat w
  refine ⟨?_, ?_, ?_, ?_⟩
  · intro node endpoints hfind
    rcases TunnelGateway.find_endpoints_next hfind with hkept | hnew
    · exact hold.endpoints node endpoints hkept
    · exact hrecorded hnew
  · intro key node hfind
    rcases TunnelGateway.find_key_next hfind with hkept | ⟨endpoint, hkey, hnew⟩
    · exact hold.keys key node hkept
    · exact ⟨endpoint, hkey, hrecorded hnew⟩
  · intro p hsocket
    rcases TunnelGateway.socketOf_next hsocket with hkept | hnew
    · exact hold.ports p hkept
    · exact ⟨w, List.mem_append_right _ (List.mem_singleton_self w), rfl, hopening hnew⟩
  · intro node socket hsocket
    have hport : (next (TunnelGateway.machine link) g ge).socketOf
        (Port.mk .measurement node socket).kind node = some socket := hsocket
    rcases TunnelGateway.socketOf_next hport with hkept | hnew
    · exact hold.minted node socket hkept
    · exact (hminted _ (hopening hnew) rfl).mono (List.subset_append_left past [w])

theorem allFounded_next {s : Sites} {x : Side} {e : SiteEvent} (h : AllFounded link past s)
    (hminted : ∀ p ∈ openings link (s, (x, e)), p.2.kind = .measurement →
      Minted link past x.other p.2.node) :
    AllFounded link (past ++ [(s, (x, e))]) (next (machine link) s (x, e)) := by
  intro y i g' hg'
  change (Function.update s x (next (Site.machine link) (s x) e) y).gateways[i]? = some g' at hg'
  by_cases hy : y = x
  · subst hy
    rw [Function.update_self, Site.getElem?_gateways_next] at hg'
    obtain ⟨g, hg, rfl⟩ := Option.map_eq_some_iff.mp hg'
    cases hevent : (s y).eventAt i e with
    | none => exact (h y i g hg).concat _
    | some ge => exact founded_next (w := (s, (y, e))) (h y i g hg) hg hevent hminted
  · rw [Function.update_of_ne hy] at hg'
    exact (h y i g' hg').concat _

theorem allFounded_create (initialPeers : Side → List UdpEndpoint)
    (interfaces : Side → List IpAddress) :
    AllFounded link [] (create initialPeers interfaces) := by
  intro x i g hg
  obtain ⟨interface, -, rfl⟩ : ∃ interface, (interfaces x)[i]? = some interface ∧
      TunnelGateway.create interface = g := by
    simpa [create, Site.create] using hg
  refine ⟨?_, ?_, ?_, ?_⟩
  · intro node endpoints hfind
    cases hfind
  · intro key node hfind
    cases hfind
  · rintro ⟨kind, node, socket⟩ hsocket
    cases kind <;> cases hsocket
  · intro node socket hsocket
    cases hsocket

/-! ## Where measurement messages come from -/

/-- The other side has passed the message on. -/
def PassedOn (link : LinkLibrary) (past : List SiteStep) (w : SiteStep)
    (message : LocalMessage) : Prop :=
  ∃ x ∈ past, x.side = w.side.other ∧ Carries link x w ∧ ∃ r ∈ transfers link x,
    r.2.call.type = message.type ∧ r.2.call.fromNode = message.fromNode ∧
    r.2.call.toNode = message.toNode

theorem passedOn_of_eventAt {w : SiteStep} (hw : Plausible link past w) {i : ℕ} {io : LocalIo}
    {message : LocalMessage} (hevent : w.site.eventAt i w.event = some (.tunnel io message))
    (htype : isMeasurement message.type = true) : PassedOn link past w message := by
  obtain ⟨datagram, hreceived, hmessage⟩ := exists_received_of_eventAt hevent
  obtain ⟨x, hx, hside, hsent⟩ := hw.tunnel datagram hreceived
  obtain ⟨j, t, ht, hkind, hfrom, hto⟩ := exists_transfer_of_tunnelled hsent hmessage htype
  exact ⟨x, hx, hside, ⟨datagram, hreceived, hsent⟩, (j, t), ht, hkind, hfrom, hto⟩

/-- The step in which a node was handed the ping that it answers. -/
def Replies (link : LinkLibrary) (past : List SiteStep) (w : SiteStep) (r : ℕ × Transfer) :
    Prop :=
  ∃ before y after, past = before ++ y :: after ∧ y.side = w.side ∧ ∃ h ∈ handovers link y,
    h.message.type = .measurementPing ∧ h.gateway = r.1 ∧ h.source = r.2.port.socket ∧
    h.message.fromNode = r.2.port.node ∧ h.message.toNode = some r.2.call.fromNode ∧
    Announced link before y.side r.2.call.fromNode h.dest ∧
    Announced link past w.side r.2.call.fromNode r.2.sender

structure Traced (link : LinkLibrary) (past : List SiteStep) (w : SiteStep) : Prop where
  /-- A ping leaves under an id that its gateway has made up for its socket. -/
  named : ∀ r ∈ transfers link w, r.2.call.type = .measurementPing →
    ∃ u ∈ past ++ [w], u.side = w.side ∧
      (r.1, ⟨r.2.call.fromNode, r.2.sender⟩) ∈ mints link u
  /-- A measurement surrogate stands for an id of the other side. -/
  targeted : ∀ r ∈ transfers link w, r.2.port.kind = .measurement →
    Minted link past w.side.other r.2.port.node
  /-- A ping that is handed over was passed on by the other side, and goes to an
  endpoint recorded for its target. -/
  handed : ∀ h ∈ handovers link w, h.message.type = .measurementPing →
    PassedOn link past w h.message ∧
    Opened link (past ++ [w]) w.side h.gateway
      ⟨.measurement, h.message.fromNode, h.source⟩ ∧
    ∃ target endpoint, h.message.toNode = some target ∧
      h.dest.unscoped = endpoint.unscoped ∧
      Recorded link past w.side h.gateway ⟨target, endpoint⟩
  replies : ∀ r ∈ transfers link w, r.2.call.type = .measurementPong → Replies link past w r

theorem exists_mint_of_ping (hT : History.Each (Traced link) past) {x : SiteStep}
    (hx : x ∈ past) {r : ℕ × Transfer} (hr : r ∈ transfers link x)
    (htype : r.2.call.type = .measurementPing) :
    ∃ u ∈ past, u.side = x.side ∧ (r.1, ⟨r.2.call.fromNode, r.2.sender⟩) ∈ mints link u := by
  obtain ⟨before, hbefore, htraced⟩ := hT.exists_past hx
  obtain ⟨u, hu, hmint⟩ := htraced.named r hr htype
  refine ⟨u, ?_, hmint⟩
  rcases List.mem_append.mp hu with hu | hself
  · exact hbefore hu
  · rw [List.mem_singleton.mp hself]
    exact hx

/-- A measurement surrogate is opened for an id that the other side has made up. -/
theorem minted_of_opening {w : SiteStep} (hT : History.Each (Traced link) past)
    (hw : Plausible link past w) :
    ∀ p ∈ openings link w, p.2.kind = .measurement →
      Minted link past w.side.other p.2.node := by
  rintro ⟨i, p⟩ hp hkind
  obtain ⟨g, ge, hg, hevent, hread⟩ := mem_readings.mp hp
  obtain ⟨io, message, rfl, hport, hnode⟩ := TunnelGateway.opening?_spec hread
  have htype : message.type = .measurementPing := by
    by_contra hother
    rw [hport, portKind, if_neg hother] at hkind
    cases hkind
  obtain ⟨x, hx, hside, -, r, hr, hsame, hfrom, -⟩ :=
    passedOn_of_eventAt hw hevent (by rw [htype]; rfl)
  obtain ⟨u, hu, huside, hmint⟩ := exists_mint_of_ping hT hx hr (hsame.trans htype)
  exact ⟨u, hu, huside.trans hside, _, hmint, hfrom.trans hnode.symm⟩

theorem replies_of_plausible
    (hkeys : Function.Injective (TunnelGateway.createKeyFromEndpoint link)) {w : SiteStep}
    (hP : History.Each (Plausible link) past) (hw : Plausible link past w)
    (hT : History.Each (Traced link) past) {i : ℕ} {g : TunnelGateway} {ge : GatewayEvent}
    (hfounded : Founded link past w.side i g) {t : Transfer}
    (hg : w.site.gateways[i]? = some g) (hevent : w.site.eventAt i w.event = some ge)
    (hread : g.transfer? link ge = some t) (htype : t.call.type = .measurementPong) :
    Replies link past w (i, t) := by
  have ht : (i, t) ∈ transfers link w := mem_readings.mpr ⟨g, ge, hg, hevent, hread⟩
  obtain ⟨v, hv, hvside, ⟨k, a⟩, ha, hasender, y, hy, hyside, h, hmem, hping, hsource,
    hannounced⟩ := hw.pongs (i, t) ht htype
  obtain ⟨hsocket, -, ⟨hnot, -⟩ | hkey⟩ := TunnelGateway.transfer?_spec hread
  · rw [htype] at hnot
    cases hnot
  -- the id that the sender is looked up under is the node that announced the endpoint
  have hnode : t.call.fromNode = a.node := by
    obtain ⟨endpoint, hsame, u, hu, huside, hrecorded⟩ := hfounded.keys _ _ hkey
    obtain rfl := hkeys hsame
    have hside : u.side = v.side := huside.trans hvside.symm
    rcases hrecorded with hannouncement | hmint
    · exact announcement_unique hP hu hv hside hannouncement ha hasender.symm
    · exact absurd hasender.symm (mint_endpoint_ne hP hu hv hside hmint ha)
  obtain ⟨before, after, rfl, htraced⟩ := hT.exists_split hy
  obtain ⟨-, hopened, target, endpoint, htarget, hdest, u, hu, huside, hrecorded⟩ :=
    htraced.handed h hmem hping
  -- and so is the target that the ping was handed over for
  obtain ⟨u', hu', hu'side, ⟨k', b⟩, hb, hbnode, hbdest⟩ := hannounced
  dsimp only at hbnode hbdest
  have hpast : u ∈ before ++ y :: after := List.mem_append_left _ hu
  have hside : u.side = u'.side := huside.trans (hyside.trans hu'side.symm)
  have hsame : endpoint.unscoped = b.endpoint.unscoped := hdest.symm.trans hbdest.symm
  have hannouncement : (h.gateway, ⟨target, endpoint⟩) ∈ announcements link u := by
    apply hrecorded.resolve_right
    intro hmint
    exact mint_endpoint_ne hP hpast hu' hside hmint hb hsame
  have htargetNode : target = t.call.fromNode := by
    rw [hnode, ← hbnode]
    exact announcement_unique hP hpast hu' hside hannouncement hb hsame
  -- the port of the pong is the port that the ping was sent from
  obtain ⟨hgateway, hport⟩ : h.gateway = i ∧ ⟨.measurement, h.message.fromNode, h.source⟩ =
      t.port := by
    obtain ⟨p, hp, hpside, hopening⟩ := hopened
    obtain ⟨q, hq, hqside, hopening'⟩ := hfounded.ports t.port hsocket
    have hp' : p ∈ before ++ y :: after := by
      rcases List.mem_append.mp hp with hbefore | hself
      · exact List.mem_append_left _ hbefore
      · rw [List.mem_singleton.mp hself]
        exact hy
    exact opening_unique hP hp' hq (hpside.trans (hyside.trans hqside.symm)) hopening
      hopening' rfl hsource
  refine ⟨before, y, after, rfl, hyside, h, hmem, hping, hgateway, hsource, ?_, ?_, ?_, ?_⟩
  · rw [← hport]
  · rw [htarget, htargetNode]
  · exact ⟨u, hu, huside, _, hannouncement, htargetNode, hdest.symm⟩
  · exact ⟨v, hv, hvside, _, ha, hnode.symm, hasender⟩

theorem traced_of_founded
    (hkeys : Function.Injective (TunnelGateway.createKeyFromEndpoint link)) {w : SiteStep}
    (hP : History.Each (Plausible link) past) (hw : Plausible link past w)
    (hT : History.Each (Traced link) past)
    (hfounded : ∀ i g, w.site.gateways[i]? = some g → Founded link past w.side i g) :
    Traced link past w := by
  refine ⟨?_, ?_, ?_, ?_⟩
  · rintro ⟨i, t⟩ ht htype
    obtain ⟨g, ge, hg, hevent, hread⟩ := mem_readings.mp ht
    obtain ⟨-, -, ⟨-, hmint⟩ | hkey⟩ := TunnelGateway.transfer?_spec hread
    · exact ⟨w, List.mem_append_right _ (List.mem_singleton_self w), rfl,
        mem_readings.mpr ⟨g, ge, hg, hevent, hmint⟩⟩
    · obtain ⟨endpoint, hsame, u, hu, hside, hannounced | hmint⟩ :=
        (hfounded i g hg).keys _ _ hkey
      · -- the sender of a ping would be an announced endpoint
        obtain rfl := hkeys hsame
        exact absurd rfl ((hw.pings u hu hside).1 _ ht htype _ hannounced)
      · obtain rfl := hkeys hsame
        exact ⟨u, List.mem_append_left _ hu, hside, hmint⟩
  · rintro ⟨i, t⟩ ht hkind
    obtain ⟨g, ge, hg, hevent, hread⟩ := mem_readings.mp ht
    obtain ⟨hsocket, -, -⟩ := TunnelGateway.transfer?_spec hread
    exact (hfounded i g hg).minted _ _ (hkind ▸ hsocket)
  · intro h hmem hping
    obtain ⟨htype, io, g, bytes, hg, hevent, hsend⟩ := mem_handovers hmem
    obtain ⟨hsocket, target, endpoints, htarget, hfind, hlocal⟩ :=
      TunnelGateway.send_of_measurement hsend htype
    rw [hping, portKind, if_pos rfl] at hsocket
    have hnext := founded_next (hfounded _ g hg) hg hevent (minted_of_opening hT hw)
    refine ⟨passedOn_of_eventAt hw hevent htype, ?_, target, endpoints.measurementEndpoint,
      htarget, ?_, ?_⟩
    · exact hnext.ports ⟨.measurement, h.message.fromNode, h.source⟩ hsocket
    · exact TunnelGateway.unscoped_localEndpoint hlocal
    · exact (hfounded _ g hg).endpoints target endpoints hfind
  · rintro ⟨i, t⟩ ht htype
    obtain ⟨g, ge, hg, hevent, hread⟩ := mem_readings.mp ht
    exact replies_of_plausible hkeys hP hw hT (hfounded i g hg) hg hevent hread htype

/-! ## The way back -/

/-- A gateway sends to one socket only what is meant for a made-up id. -/
theorem endpoints_of_mint {x : Side} {i j : ℕ} {g : TunnelGateway} {u : SiteStep} {b : Binding}
    (hP : History.Each (Plausible link) past) (hfounded : Founded link past x i g)
    (hu : u ∈ past) (hmint : (j, b) ∈ mints link u) {endpoints : LocalNodeEndpoints}
    (hfind : g.localNodeIdToEndpointMap.find b.node = some endpoints) :
    j = i ∧ b.endpoint = endpoints.measurementEndpoint := by
  obtain ⟨v, hv, -, hannouncement | hmint'⟩ := hfounded.endpoints b.node endpoints hfind
  · exact absurd rfl (mint_ne_announcement hP hu hv hmint hannouncement :
      b.node ≠ (Binding.mk b.node endpoints.measurementEndpoint).node)
  · obtain ⟨-, hgateway, hbinding⟩ := mint_unique hP hu hv hmint hmint' rfl
    exact ⟨hgateway, congrArg Binding.endpoint hbinding⟩

/-- A node that announces itself is reached through no measurement surrogate. -/
theorem kind_of_announced (hP : History.Each (Plausible link) past)
    (hT : History.Each (Traced link) past) {x : SiteStep} (hx : x ∈ past) {r : ℕ × Transfer}
    (hr : r ∈ transfers link x) {y : Side} {endpoint : UdpEndpoint}
    (hannounced : Announced link past y r.2.port.node endpoint) : r.2.port.kind = .node := by
  obtain ⟨before, hbefore, htraced⟩ := hT.exists_past hx
  cases hkind : r.2.port.kind with
  | node => rfl
  | measurement =>
      obtain ⟨u, hu, -, m, hm, hnode⟩ := htraced.targeted r hr hkind
      obtain ⟨v, hv, -, a, ha, hanode, -⟩ := hannounced
      exact absurd (hnode.trans hanode.symm) (mint_ne_announcement hP (hbefore hu) hv hm ha)

theorem answered_of_traced {w : SiteStep} (hP : History.Each (Plausible link) past)
    (hw : Plausible link past w) (hT : History.Each (Traced link) past)
    (hfounded : ∀ i g, w.site.gateways[i]? = some g → Founded link past w.side i g) :
    Answered link past w := by
  intro pong hpong hkind
  obtain ⟨htype, io, g, bytes, hg, hevent, hsend⟩ := mem_handovers hpong
  obtain ⟨-, target, endpoints, htarget, hfind, hlocal⟩ :=
    TunnelGateway.send_of_measurement hsend htype
  obtain ⟨z, hz, hzside, hcarries, ⟨k, answer⟩, hanswer, hanswerType, hfrom, hto⟩ :=
    passedOn_of_eventAt hw hevent htype
  dsimp only at hanswerType hfrom hto
  -- the node was handed a ping, with the id that is now the target of the pong
  obtain ⟨beforeZ, afterZ, hsplitZ, htracedZ⟩ := hT.exists_split hz
  obtain ⟨before, y, between, rfl, hyside, h, hmem, hping, rfl, hsource, hid, hnode,
    hreached, hsender⟩ := htracedZ.replies _ hanswer (hanswerType.trans hkind)
  dsimp only at hsource hid hnode hreached hsender
  rw [hfrom] at hnode hreached hsender
  have hsplit : past = before ++ y :: (between ++ z :: afterZ) := by
    simpa using hsplitZ
  have hbefore : before ⊆ past := hsplit ▸ List.subset_append_left ..
  -- the ping came from the socket that the id was made up for
  obtain ⟨⟨x, hx, hxside, hxcarries, ⟨j, ping⟩, hpingMem, hpingType, hpingFrom, hpingTo⟩,
    -, -⟩ := (hT before y _ hsplit).handed h hmem hping
  dsimp only at hpingType hpingFrom hpingTo
  obtain ⟨u, hu, -, hmint⟩ := exists_mint_of_ping hT (hbefore hx) hpingMem
    (hpingType.trans hping)
  have htargetId : target = ping.call.fromNode := by
    rw [htarget, toNode_of_mem_transfers hanswer] at hto
    rw [hpingFrom, hid]
    exact (Option.some.inj hto).symm
  obtain ⟨rfl, hsocket⟩ := endpoints_of_mint hP (hfounded _ g hg) hu hmint (htargetId ▸ hfind)
  -- and to the surrogate of the node that the pong comes from
  have hpingNode : ping.port.node = pong.message.fromNode := by
    rw [toNode_of_mem_transfers hpingMem, hnode] at hpingTo
    exact Option.some.inj hpingTo
  have hpingKind : ping.port.kind = .node :=
    kind_of_announced hP hT (hbefore hx) hpingMem (hpingNode ▸ hreached.mono hbefore)
  refine ⟨before, y, between ++ z :: afterZ, x, z, hsplit, hx, by simp, ?_, ?_, hzside, ping,
    h, answer, ⟨hpingMem, hpingType.trans hping, hpingKind, hpingNode, ?_⟩,
    ⟨hxcarries, hmem, hping, hpingFrom.symm, hnode, hreached⟩,
    ⟨hanswer, hanswerType.trans hkind, hsource.symm, ?_, hcarries⟩⟩
  · rw [hxside, hyside, hzside, Side.other_other]
  · rw [hyside, hzside]
  · rw [TunnelGateway.unscoped_localEndpoint hlocal, ← hsocket]
  · apply hsender.mono
    rw [← hsplit, hsplitZ]
    exact List.subset_append_left ..

/-! ## Runs -/

/-- In every run of two joined sites, with ids that are fresh and nodes that keep to
their own endpoints, a pong that a gateway hands over has made its round trip. -/
theorem each_answered (link : LinkLibrary) (haddress : Function.Injective link.addressToString)
    (initialPeers : Side → List UdpEndpoint) (interfaces : Side → List IpAddress)
    (es : List (Side × SiteEvent))
    (h : History.Each (Plausible link) (trace (machine link) (create initialPeers interfaces) es)) :
    History.Each (Answered link) (trace (machine link) (create initialPeers interfaces) es) := by
  have hkeys := TunnelGateway.createKeyFromEndpoint_injective haddress
  refine @each_of_invariant _ _ _ (machine link)
    (fun past s ↦ History.Each (Plausible link) past ∧ History.Each (Traced link) past ∧
      AllFounded link past s) (Plausible link) (Answered link) _ ?_ ?_ ?_ es h
  · exact ⟨History.each_nil _, History.each_nil _, allFounded_create initialPeers interfaces⟩
  · rintro past s ⟨x, e⟩ ⟨hP, hT, hfounded⟩ hw
    refine ⟨History.each_concat.mpr ⟨hP, hw⟩, History.each_concat.mpr ⟨hT, ?_⟩, ?_⟩
    · exact traced_of_founded hkeys hP hw hT (hfounded x)
    · exact allFounded_next hfounded (minted_of_opening hT hw)
  · rintro past s ⟨x, e⟩ ⟨hP, hT, hfounded⟩ hw
    exact answered_of_traced hP hw hT (hfounded x)

/-! ## One ping and its pong -/

section Decidable

variable (link : LinkLibrary) (past : List SiteStep) (w : SiteStep)

instance : Decidable (FreshIds link past w) := inferInstanceAs (Decidable (∀ _ ∈ _, _))

instance : Decidable (OwnEndpoints link past w) := inferInstanceAs (Decidable (∀ _ ∈ _, _))

instance : Decidable (PingSockets link past w) := inferInstanceAs (Decidable (∀ _ ∈ _, _))

instance : Decidable (OwnSockets link past w) := inferInstanceAs (Decidable (_ ∧ _))

instance (x : Side) (node : NodeId) (endpoint : UdpEndpoint) :
    Decidable (Announced link past x node endpoint) :=
  inferInstanceAs (Decidable (∃ _ ∈ _, _))

instance : Decidable (PongSenders link past w) := inferInstanceAs (Decidable (∀ _ ∈ _, _))

instance : Decidable (FromOtherSide link past w) := inferInstanceAs (Decidable (∀ _ ∈ _, _))

instance : Decidable (Plausible link past w) :=
  decidable_of_iff (FreshIds link past w ∧ OwnEndpoints link past w ∧ PingSockets link past w ∧
      OwnSockets link past w ∧ PongSenders link past w ∧ FromOtherSide link past w)
    ⟨fun h ↦ ⟨h.1, h.2.1, h.2.2.1, h.2.2.2.1, h.2.2.2.2.1, h.2.2.2.2.2⟩,
      fun h ↦ ⟨h.fresh, h.endpoints, h.pings, h.sockets, h.pongs, h.tunnel⟩⟩

end Decidable

def pongMessage : List UInt8 :=
  [0x5f, 0x6c, 0x69, 0x6e, 0x6b, 0x5f, 0x76, 1, 2] ++ List.replicate 16 0

/-- What one receive gives of these bytes. -/
def receivedDatagram (bytes : List UInt8) : Datagram :=
  ⟨bytes.take kMaxMessageSize, List.length_take_le ..⟩

def tunnelDatagram (type : TunnelMessageType) (fromNode : NodeId) (toNode : Option NodeId)
    (message : List UInt8) : Datagram :=
  receivedDatagram (tunnelHeader type fromNode toNode message.length ++ message)

/-- The two sites greet each other, the zero node is announced at the second, and a
socket of the first pings its surrogate. -/
def pingPong : List (Side × SiteEvent) :=
  [(.a, .tunnel (.runMaintenance 0) (fun _ ↦ TunnelGateway.openSockets 10000)),
    (.b, Site.hello (localhost 1)),
    (.a, Site.hello (localhost 2)),
    (.b, .lan 0 0 (.multicast TunnelGateway.kSameSubnetPeer (receivedDatagram
      (Site.aliveBody ++ LinkLibrary.endpointEntry (localhost 20809)))) 0),
    (.a, .tunnel (.receive 0 (localhost 2) (tunnelDatagram .broadcast default none
      Site.aliveBody)) (fun _ ↦ TunnelGateway.openSockets 10000)),
    (.a, .lan 0 0 (.measurementSocket default (localhost 5000)
      (receivedDatagram Site.pingMessage) Site.drawnNode) 0),
    (.b, .tunnel (.receive 0 (localhost 1) (tunnelDatagram .measurementPing Site.drawnNode
      (some default) Site.pingMessage)) (fun _ ↦ TunnelGateway.openSockets 20000)),
    (.b, .lan 0 0 (.measurementSurrogateSocket Site.drawnNode (localhost 20809)
      (receivedDatagram pongMessage) default) 0),
    (.a, .tunnel (.receive 0 (localhost 2) (tunnelDatagram .measurementPong default
      (some Site.drawnNode) pongMessage)) (fun _ ↦ TunnelGateway.openSockets 30000))]

def twoSites : Sites :=
  create (fun x ↦ match x with
    | .a => [localhost 2]
    | .b => [localhost 1]) (fun _ ↦ [TunnelGateway.kLocalIfAddr])

theorem each_answered_pingPong :
    History.Each (Answered .version1) (trace (machine .version1) twoSites pingPong) ∧
      ((trace (machine .version1) twoSites pingPong).flatMap (handovers .version1)).map
        (fun h ↦ (h.message.type, h.source, h.dest)) =
          [(.measurementPing, localhost 20000, localhost 20809),
            (.measurementPong, localhost 10001, localhost 5000)] := by
  refine ⟨?_, by decide +kernel⟩
  apply each_answered LinkLibrary.version1 LinkLibrary.addressToString_injective_version1
  decide +kernel

end Sites

end LinkExtender
