import LinkExtender.Site
import LinkExtender.TunnelGateway.Datagrams

/-!
# State messages through the tunnel

A state message leaves its site without the endpoint entry at its end, crosses the
tunnel in an envelope, and is sent on by every gateway of the other site with the
endpoint of that gateway's own surrogate in place of the one removed.
-/

namespace LinkExtender

open EventMachine

namespace TunnelGateway

variable {link : LinkLibrary} {g : TunnelGateway} {io : LocalIo} {message : LocalMessage}

/-! ## Leaving a site -/

/-- A datagram on the multicast socket, or on the state socket of a node's
surrogate. -/
def stateEvent (toNode : Option NodeId) (sender : UdpEndpoint) (datagram : Datagram) :
    LanEvent :=
  match toNode with
  | none => .multicast sender datagram
  | some node => .stateSocket node sender datagram

def stateType (toNode : Option NodeId) : TunnelMessageType :=
  if toNode.isSome then .unicast else .broadcast

theorem hasToNode_stateType (toNode : Option NodeId) :
    toNode.isSome = (stateType toNode).hasToNode := by
  cases toNode <;> rfl

/-- `receivePeerState` is reached and parses the payload. -/
structure Accepts (link : LinkLibrary) (g : TunnelGateway) (sender : UdpEndpoint)
    (message : List UInt8) (toNode : Option NodeId) (header : MessageHeader)
    (state : PeerState) : Prop where
  socket : ∀ node ∈ toNode, g.hasRemoteNodeSurrogate node = true
  near : g.ignoreIpV4Message sender = false
  parsed : (link.parseMessageHeader message).1 = header
  foreign : g.hasRemoteNodeSurrogate header.ident = false
  type : header.messageType = .kAlive ∨ header.messageType = .kResponse
  payload : link.fromPayload header.ident (link.parseMessageHeader message).2 = some state

theorem lanAction_of_accepts {sender : UdpEndpoint} {datagram : Datagram}
    {toNode : Option NodeId} {header : MessageHeader} {state : PeerState}
    (h : Accepts link g sender datagram.bytes toNode header state) (now : TimePoint) :
    g.lanAction link now (stateEvent toNode sender datagram) =
      .announce sender header.ttl state
        ⟨stateType toNode, header.ident,
          withoutEndpoint link datagram.bytes state.endpoint, toNode⟩ := by
  have hstate : g.stateAction link sender datagram.bytes toNode =
      .announce sender header.ttl state
        ⟨stateType toNode, header.ident,
          withoutEndpoint link datagram.bytes state.endpoint, toNode⟩ := by
    obtain ⟨-, hnear, rfl, hforeign, htype, hpayload⟩ := h
    simp only [stateAction, hnear, hforeign, Bool.or_self, Bool.false_eq_true, if_false,
      hpayload]
    rcases htype with htype | htype <;> rw [htype] <;> rfl
  cases toNode with
  | none => exact hstate
  | some node =>
      have hsocket := h.socket node rfl
      simpa only [stateEvent, lanAction, hsocket, if_true] using hstate

theorem withoutEndpoint_append (link : LinkLibrary) (body : List UInt8)
    (endpoint : UdpEndpoint) :
    withoutEndpoint link (body ++ link.endpointPayload endpoint) endpoint = body := by
  have hentry : (link.endpointPayload endpoint).length = link.measEndpointEntrySize endpoint :=
    link.length_endpointPayload endpoint
  rw [withoutEndpoint, List.length_append, hentry, Nat.add_sub_cancel, List.take_left]

/-! ## Arriving at a gateway -/

/-- The state endpoints that unicasts are sent to can be reached from the
interface. -/
def Addressable (g : TunnelGateway) : Prop :=
  ∀ node endpoints, g.localNodeIdToEndpointMap.find node = some endpoints →
    (g.localEndpoint endpoints.stateEndpoint).isSome = true

theorem isSome_localEndpoint {endpoint : UdpEndpoint} :
    (g.localEndpoint endpoint).isSome = true ↔
      endpoint.address.isV4 = true ∨ g.localInterfaceAddress.isV4 = false := by
  unfold localEndpoint
  cases endpoint.address <;> cases g.localInterfaceAddress <;> simp [IpAddress.isV4]

theorem exists_destination (haddressable : g.Addressable)
    (htype : message.type = stateType message.toNode)
    (hknows : ∀ node ∈ message.toNode, g.hasLocalNode node = true) :
    ∃ dest, g.destination link message = some dest ∧
      (g.localEndpoint dest).isSome = true := by
  unfold destination
  cases hto : message.toNode with
  | none =>
      rw [htype, hto]
      exact ⟨_, rfl, isSome_localEndpoint_getBroadcastEndpoint link g⟩
  | some node =>
      obtain ⟨endpoints, hfind⟩ := Option.isSome_iff_exists.mp (hknows node hto)
      rw [htype, hto]
      simp only [stateType, Option.isSome_some, if_true, Option.bind_some, hfind]
      exact ⟨_, rfl, haddressable node endpoints hfind⟩

/-- A gateway that can open its sockets and send puts its own endpoint behind the
message. -/
theorem datagrams_forwardMessageLocally {body : List UInt8} {s : RemoteNodeSurrogate}
    (haddressable : g.Addressable) (htype : message.type = stateType message.toNode)
    (hknows : ∀ node ∈ message.toNode, g.hasLocalNode node = true)
    (hbody : message.buffer.bytes.take message.size = body)
    (hsize : message.size = body.length)
    (hsurrogate : g.nodeSurrogate io message.fromNode = some s)
    (hroom : body.length + (link.endpointPayload s.measurementSocket).length <
      kMaxMessageSize)
    (hsend : io.sendFails = false) :
    (g.forwardMessageLocally link io message).1.mRemoteNodeIdToRemoteNodeSurrogate.find
        message.fromNode = some s ∧
      ∃ dest, datagrams (g.forwardMessageLocally link io message).2.2 =
        [(s.stateSocket, body ++ link.endpointPayload s.measurementSocket, dest)] := by
  have hstate : message.type ≠ .measurementPing ∧ message.type ≠ .measurementPong ∧
      isSentWhole message.type = false := by
    rw [htype]
    cases message.toNode <;> exact ⟨nofun, nofun, rfl⟩
  obtain ⟨hping, hpong, hwhole⟩ := hstate
  obtain ⟨target, htarget, hlocal⟩ := @exists_destination link g message haddressable htype hknows
  obtain ⟨dest, hdest⟩ := Option.isSome_iff_exists.mp hlocal
  have hrouted : Routed link g io message s dest := ⟨⟨target, htarget, hdest⟩, hsurrogate, hsend⟩
  obtain ⟨hfind, hsent⟩ := datagrams_of_routed hping hrouted
  rw [take_outgoing hwhole (by rwa [hsize]), hbody, sourceOf, if_neg hpong] at hsent
  exact ⟨hfind, dest, hsent⟩

/-! ## The recorded endpoints -/

/-- The senders of state messages are of a family that the interface serves. -/
def HearsFamily (g : TunnelGateway) : GatewayEvent → Prop
  | .lan _ (.multicast sender _) | .lan _ (.stateSocket _ sender _) =>
      sender.address.isV4 = true ∨ g.localInterfaceAddress.isV4 = false
  | _ => True

theorem sender_of_announce {now : TimePoint} {e : LanEvent} {sender : UdpEndpoint}
    {ttl : UInt8} {state : PeerState} {call : ForwardCall}
    (h : g.lanAction link now e = .announce sender ttl state call)
    (hfamily : g.HearsFamily (.lan now e)) :
    sender.address.isV4 = true ∨ g.localInterfaceAddress.isV4 = false := by
  have hreading := lanReading link g now e
  rw [h] at hreading
  cases hreading with
  | announced hmessage hheader hforeign hstate =>
      cases e with
      | multicast =>
          cases hmessage
          exact hfamily
      | stateSocket =>
          obtain ⟨-, heq⟩ := Option.ite_none_right_eq_some.mp hmessage
          cases heq
          exact hfamily
      | _ => cases hmessage

theorem Addressable.congr {g' : TunnelGateway} (h : g.Addressable)
    (hinterface : g'.localInterfaceAddress = g.localInterfaceAddress)
    (hendpoints : ∀ node endpoints, g'.localNodeIdToEndpointMap.find node = some endpoints →
      g.localNodeIdToEndpointMap.find node = some endpoints ∨
        (g.localEndpoint endpoints.stateEndpoint).isSome = true) : g'.Addressable := by
  intro node endpoints hfind
  rw [isSome_localEndpoint, hinterface, ← isSome_localEndpoint]
  rcases hendpoints node endpoints hfind with hold | hnew
  · exact h node endpoints hold
  · exact hnew

theorem addressable_next (h : g.Addressable) (e : GatewayEvent) (hfamily : g.HearsFamily e) :
    (next (machine link) g e).Addressable := by
  cases e with
  | tunnel io message =>
      obtain ⟨hinterface, -, hendpoints, -⟩ := forwardMessageLocally_local link g io message
      refine h.congr hinterface (fun node endpoints hfind ↦ Or.inl ?_)
      rwa [next_tunnel, hendpoints] at hfind
  | lan now e =>
      rw [next_lan]
      refine h.congr (localInterfaceAddress_perform g now _) (fun node endpoints hfind ↦ ?_)
      rcases find_endpoints_perform hfind with
        hold | ⟨sender, ttl, state, call, haction, -, rfl⟩ | ⟨sender, call, -, -, rfl⟩
      · exact Or.inl hold
      · exact Or.inr (isSome_localEndpoint.mpr (sender_of_announce haction hfamily))
      · exact Or.inr (isSome_localEndpoint.mpr (Or.inl rfl))

end TunnelGateway

namespace Site

variable {link : LinkLibrary}

/-- Every gateway hears state messages of its interface's family only. -/
def HearsFamily (s : Site) (e : SiteEvent) : Prop :=
  ∀ (i : ℕ) (g : TunnelGateway) (ge : GatewayEvent), s.gateways[i]? = some g →
    s.eventAt i e = some ge → g.HearsFamily ge

def Addressable (s : Site) : Prop :=
  ∀ (i : ℕ) (g : TunnelGateway), s.gateways[i]? = some g → g.Addressable

theorem addressable_next {s : Site} (h : s.Addressable) (e : SiteEvent)
    (hfamily : s.HearsFamily e) : (next (machine link) s e).Addressable := by
  intro i g' hg'
  rw [getElem?_gateways_next] at hg'
  obtain ⟨g, hg, rfl⟩ := Option.map_eq_some_iff.mp hg'
  cases he : s.eventAt i e with
  | none => exact h i g hg
  | some ge => exact TunnelGateway.addressable_next (h i g hg) ge (hfamily i g ge hg he)

theorem addressable_run {initialPeers : List UdpEndpoint} {interfaces : List IpAddress}
    {es : List SiteEvent}
    (hfamily : Along (machine link) HearsFamily (create initialPeers interfaces) es) :
    (run (machine link) (create initialPeers interfaces) es).Addressable := by
  refine run_invariant_along (machine link) (I := Addressable)
    (fun _ e h hfamily ↦ addressable_next h e hfamily) ?_ hfamily
  intro i g hg
  obtain ⟨interface, -, rfl⟩ : ∃ interface, interfaces[i]? = some interface ∧
      TunnelGateway.create interface = g := by
    simpa [create] using hg
  intro node endpoints hfind
  simp [TunnelGateway.create] at hfind

/-! ## From site to site -/

/-- What a site sends into the tunnel when one of its gateways accepts a state
message. -/
theorem sent_iff_of_accepts {a : Site} {i : ℕ} {g : TunnelGateway} {now steadyNow : TimePoint}
    {sender : UdpEndpoint} {datagram : Datagram} {toNode : Option NodeId}
    {header : MessageHeader} {state : PeerState} {body : List UInt8}
    (hg : a.gateways[i]? = some g)
    (haccepts : g.Accepts link sender datagram.bytes toNode header state)
    (hentry : datagram.bytes = body ++ link.endpointPayload state.endpoint)
    (hpassed : ¬ a.tunnel.Suppressed steadyNow (TunnelGateway.stateType toNode)
      header.ident body)
    (hfits : encapsulatedSize (TunnelGateway.stateType toNode) body.length ≤ kMaxMessageSize)
    (dest : UdpEndpoint) (bytes : List UInt8) :
    SiteOutput.tunnel (.send dest bytes) ∈ emit (machine link) a
        (.lan i now (TunnelGateway.stateEvent toNode sender datagram) steadyNow) ↔
      dest ∈ a.tunnel.recipients (TunnelGateway.stateType toNode) toNode ∧
        bytes = tunnelHeader (TunnelGateway.stateType toNode) header.ident toNode
          body.length ++ body := by
  have hbody : TunnelGateway.withoutEndpoint link datagram.bytes state.endpoint = body := by
    rw [hentry]
    exact TunnelGateway.withoutEndpoint_append ..
  have hemit := @TunnelGateway.emit_lan link g now
    (TunnelGateway.stateEvent toNode sender datagram)
  rw [TunnelGateway.lanAction_of_accepts haccepts, hbody] at hemit
  rw [emit, machine_lan hg, hemit]
  have hforward := UdpTunnel.forward_snd_of_fits hpassed
    (TunnelGateway.hasToNode_stateType toNode) hfits
  simp only [TunnelGateway.perform, forwardAll, hforward, List.append_nil, List.map_cons,
    List.map_nil, List.map_map, List.mem_append, List.mem_cons, reduceCtorEq,
    List.not_mem_nil, or_false, false_or, List.mem_map, Function.comp_apply,
    SiteOutput.tunnel.injEq, TunnelOutput.send.injEq]
  constructor
  · rintro ⟨dest', hdest', rfl, rfl⟩
    exact ⟨hdest', rfl⟩
  · rintro ⟨hdest, rfl⟩
    exact ⟨dest, hdest, rfl, rfl⟩

theorem emit_receive_of_connected {t : UdpTunnel} (now : TimePoint) {origin : UdpEndpoint}
    {datagram : Datagram} {message : LocalMessage} (hconnected : t.isConnected origin = true)
    (hmessage : UdpTunnel.messageOf datagram = some message)
    (hdata : message.type.isControl = false) :
    emit UdpTunnel.machine t (.receive now origin datagram) = [.forwardLocally message] := by
  obtain ⟨idx, peer, hpeer, hstate⟩ := UdpTunnel.isConnected_eq_true.mp hconnected
  obtain ⟨message', hmessage', hreceive⟩ := UdpTunnel.receive_eq_dispatch t now origin datagram
  obtain rfl := Option.some.inj (hmessage.symm.trans hmessage')
  change (t.receive now origin datagram).2 = _
  rw [hreceive, UdpTunnel.dispatch_of_data hdata]
  simp only [UdpTunnel.handleData, hpeer, hstate, if_true]

theorem eventAt_receive {b : Site} {now : TimePoint} {origin : UdpEndpoint}
    {datagram : Datagram} {message : LocalMessage} (ios : ℕ → LocalIo)
    (hconnected : b.tunnel.isConnected origin = true)
    (hmessage : UdpTunnel.messageOf datagram = some message)
    (hdata : message.type.isControl = false) (j : ℕ) :
    b.eventAt j (.tunnel (.receive now origin datagram) ios) =
      some (.tunnel (ios j) message) := by
  simp only [eventAt, isExternal, if_true, emit_receive_of_connected now hconnected hmessage hdata]
  rfl

/-- Gateway `j` answers the event with exactly one datagram: `body`, and behind it the
endpoint of its own surrogate of `ident`. -/
def SendsOnce (link : LinkLibrary) (b : Site) (e : SiteEvent) (j : ℕ) (ident : NodeId)
    (body : List UInt8) : Prop :=
  ∃ (g : TunnelGateway) (s : RemoteNodeSurrogate) (target : UdpEndpoint),
    (next (machine link) b e).gateways[j]? = some g ∧
    g.mRemoteNodeIdToRemoteNodeSurrogate.find ident = some s ∧
    TunnelGateway.datagrams (outputsAt j (emit (machine link) b e)) =
      [(s.stateSocket, body ++ link.endpointPayload s.measurementSocket, target)]

/-- A state message that ends with its endpoint entry crosses the tunnel: every
gateway of the other site that knows the target sends it on once, with the endpoint
of its own surrogate of the sender in place of that entry. -/
theorem sendsOnce_of_accepts (link : LinkLibrary)
    -- the sending site, in any state
    (a : Site) (i : ℕ) (g : TunnelGateway) (now steadyNow : TimePoint) (sender : UdpEndpoint)
    (datagram : Datagram) (toNode : Option NodeId) (header : MessageHeader)
    (state : PeerState) (body : List UInt8) (dest : UdpEndpoint)
    (hg : a.gateways[i]? = some g)
    (haccepts : g.Accepts link sender datagram.bytes toNode header state)
    (hentry : datagram.bytes = body ++ link.endpointPayload state.endpoint)
    (hpassed : ¬ a.tunnel.Suppressed steadyNow (TunnelGateway.stateType toNode)
      header.ident body)
    (hrouted : dest ∈ a.tunnel.recipients (TunnelGateway.stateType toNode) toNode)
    (hfits : encapsulatedSize (TunnelGateway.stateType toNode) body.length ≤ kMaxMessageSize)
    -- the receiving site, in any state that it can reach
    (initialPeers : List UdpEndpoint) (interfaces : List IpAddress) (es : List SiteEvent)
    (hfamily : Along (machine link) HearsFamily (create initialPeers interfaces) es)
    (b : Site) (hb : b = run (machine link) (create initialPeers interfaces) es)
    (arrival : TimePoint) (origin : UdpEndpoint) (ios : ℕ → LocalIo)
    (hconnected : b.tunnel.isConnected origin = true) :
    ∃ wire : Datagram,
      (∀ bytes, SiteOutput.tunnel (.send dest bytes) ∈ emit (machine link) a
          (.lan i now (TunnelGateway.stateEvent toNode sender datagram) steadyNow) ↔
        bytes = wire.bytes) ∧
      ∀ (j : ℕ) (h : TunnelGateway) (s : RemoteNodeSurrogate), b.gateways[j]? = some h →
        (∀ node ∈ toNode, h.hasLocalNode node = true) →
        h.nodeSurrogate (ios j) header.ident = some s → (ios j).sendFails = false →
        body.length + (link.endpointPayload s.measurementSocket).length < kMaxMessageSize →
        SendsOnce link b (.tunnel (.receive arrival origin wire) ios) j header.ident body := by
  have hto := TunnelGateway.hasToNode_stateType toNode
  have hlen : (tunnelHeader (TunnelGateway.stateType toNode) header.ident toNode body.length ++
      body).length ≤ kMaxMessageSize := by
    rwa [List.length_append, length_tunnelHeader hto]
  refine ⟨⟨_, hlen⟩, fun bytes ↦ ?_, ?_⟩
  · rw [sent_iff_of_accepts hg haccepts hentry hpassed hfits]
    exact and_iff_right hrouted
  · intro j h s hh hknows hs hsend hroom
    obtain ⟨buffer, hbuffer, hmessage⟩ :=
      @UdpTunnel.exists_messageOf_header ⟨_, hlen⟩ _ _ _ _ hto rfl
    have hdata : (TunnelGateway.stateType toNode).isControl = false := by
      cases toNode <;> rfl
    have hevent := @eventAt_receive b arrival _ _ _ ios hconnected hmessage hdata j
    have haddressable : h.Addressable := addressable_run hfamily j h (hb ▸ hh)
    obtain ⟨hfind, target, hsent⟩ :=
      @TunnelGateway.datagrams_forwardMessageLocally link h (ios j)
        ⟨TunnelGateway.stateType toNode, header.ident, buffer, body.length, toNode⟩ body s
        haddressable rfl hknows hbuffer rfl hs hroom hsend
    refine ⟨_, s, target, ?_, hfind, ?_⟩
    · rw [getElem?_gateways_next, hh, hevent]
      rfl
    · rw [outputsAt_emit, hh, hevent]
      exact hsent

/-! ## From one interface to two -/

def interfaceV6 : IpAddress := .v6 (Vector.replicate 16 1) 3

def hello (origin : UdpEndpoint) : SiteEvent :=
  .tunnel (.receive 0 origin (UdpTunnel.controlDatagram .tunnelHello))
    (fun _ ↦ TunnelGateway.openSockets 10000)

/-- Control messages stay in the tunnel. -/
theorem eventAt_hello (s : Site) (origin : UdpEndpoint) (i : ℕ) :
    s.eventAt i (hello origin) = none := by
  have hnone : localCalls (emit UdpTunnel.machine s.tunnel
      (.receive 0 origin (UdpTunnel.controlDatagram .tunnelHello))) = [] := by
    apply localCalls_eq_nil
    intro message hmem
    obtain ⟨now, sender, datagram, -, -, heq, hmessage, hdata, -⟩ :=
      UdpTunnel.forwardLocally_mem_emit hmem
    obtain ⟨message', hmessage', htype⟩ :=
      @UdpTunnel.exists_messageOf_controlDatagram .tunnelHello rfl
    obtain ⟨-, -, rfl⟩ := TunnelEvent.receive.inj heq
    obtain rfl := Option.some.inj (hmessage.symm.trans hmessage')
    simp [htype, TunnelMessageType.isControl] at hdata
  simp [hello, eventAt, isExternal, hnone]

theorem getElem?_gateways_hello (s : Site) (origin : UdpEndpoint) (i : ℕ) :
    (run (machine link) s [hello origin]).gateways[i]? = s.gateways[i]? := by
  rw [run_cons, run_nil, getElem?_gateways_next, eventAt_hello]
  cases s.gateways[i]? <;> rfl

/-- A site that is connected to the peer at port 2, and one with an IPv4 and an IPv6
interface that is connected to the peer at port 1. -/
def nearSite : Site :=
  run (machine .version1) (create [localhost 2] [TunnelGateway.kLocalIfAddr])
    [hello (localhost 2)]

def farSite : Site :=
  run (machine .version1) (create [localhost 1] [TunnelGateway.kLocalIfAddr, interfaceV6])
    [hello (localhost 1)]

def aliveBody : List UInt8 := LinkLibrary.discoveryMessage 1 5 default []

def aliveDatagram : Datagram :=
  ⟨aliveBody ++ LinkLibrary.endpointEntry (localhost 20809), by decide⟩

def mixedSockets (i : ℕ) : LocalIo :=
  if i = 0 then TunnelGateway.openSockets 10000
  else ⟨0, some ⟨⟨interfaceV6, 7⟩, ⟨interfaceV6, 8⟩⟩, none, false⟩

theorem sendsOnce_aliveDatagram : ∃ wire : Datagram,
    SendsOnce .version1 farSite (.tunnel (.receive 0 (localhost 1) wire) mixedSockets) 0
        default aliveBody ∧
      SendsOnce .version1 farSite (.tunnel (.receive 0 (localhost 1) wire) mixedSockets) 1
        default aliveBody := by
  have hquiet : Along (machine .version1) HearsFamily
      (create [localhost 1] [TunnelGateway.kLocalIfAddr, interfaceV6])
      [hello (localhost 1)] := by
    refine ⟨fun i g ge _ he ↦ ?_, trivial⟩
    rw [eventAt_hello] at he
    cases he
  obtain ⟨wire, -, hsent⟩ := sendsOnce_of_accepts .version1 nearSite 0
    (TunnelGateway.create TunnelGateway.kLocalIfAddr) 0 0 TunnelGateway.kSameSubnetPeer
    aliveDatagram none ⟨.kAlive, 5, default⟩ ⟨default, localhost 20809⟩ aliveBody (localhost 2)
    (getElem?_gateways_hello ..)
    ⟨nofun, by decide, by decide +kernel, rfl, Or.inl rfl, by decide +kernel⟩ rfl
    (by decide +kernel) (by decide +kernel) (by decide) [localhost 1]
    [TunnelGateway.kLocalIfAddr, interfaceV6] [hello (localhost 1)] hquiet farSite rfl 0
    (localhost 1) mixedSockets (by decide +kernel)
  refine ⟨wire, ?_, ?_⟩
  · exact hsent 0 (TunnelGateway.create TunnelGateway.kLocalIfAddr)
      ⟨localhost 10000, localhost 10001⟩ (getElem?_gateways_hello ..) nofun rfl rfl
      (by decide)
  · exact hsent 1 (TunnelGateway.create interfaceV6)
      ⟨⟨interfaceV6, 7⟩, ⟨interfaceV6, 8⟩⟩ (getElem?_gateways_hello ..) nofun rfl rfl
      (by decide)

end Site

end LinkExtender
