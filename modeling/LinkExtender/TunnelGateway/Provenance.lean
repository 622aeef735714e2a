import LinkExtender.TunnelGateway.Steps

/-!
# Where the entries of a gateway come from

The two endpoint tables are written where a state message is accepted and where a
ping comes from an unknown socket, and the surrogates where a tunnel message needs
one.  What the gateway passes on of a measurement is read off these entries.
-/

namespace LinkExtender

inductive SurrogateKind where
  | node
  | measurement
deriving DecidableEq

/-- The measurement socket of a surrogate. -/
structure Port where
  kind : SurrogateKind
  node : NodeId
  socket : UdpEndpoint
deriving DecidableEq

/-- A node with a measurement endpoint. -/
structure Binding where
  node : NodeId
  endpoint : UdpEndpoint
deriving DecidableEq

/-- A measurement message that goes into the tunnel, with the port it came to and its
sender. -/
structure Transfer where
  port : Port
  sender : UdpEndpoint
  call : ForwardCall
deriving DecidableEq

namespace TunnelGateway

open EventMachine

variable {link : LinkLibrary} {g : TunnelGateway}

/-! ## What an event adds -/

/-- The binding in a state message that is accepted. -/
def announcement? (link : LinkLibrary) (g : TunnelGateway) : GatewayEvent → Option Binding
  | .lan now e =>
      match g.lanAction link now e with
      | .announce _ _ state call => some ⟨call.fromNode, state.endpoint⟩
      | _ => none
  | .tunnel _ _ => none

/-- The binding of a node that is made up for the sender of a ping. -/
def mint? (link : LinkLibrary) (g : TunnelGateway) : GatewayEvent → Option Binding
  | .lan now e =>
      match g.lanAction link now e with
      | .mint sender call => some ⟨call.fromNode, sender⟩
      | _ => none
  | .tunnel _ _ => none

def socketOf (g : TunnelGateway) : SurrogateKind → NodeId → Option UdpEndpoint
  | .node, node =>
      (g.mRemoteNodeIdToRemoteNodeSurrogate.find node).map RemoteNodeSurrogate.measurementSocket
  | .measurement, node => g.mRemoteNodeIdToRemoteMeasurementSurrogate.find node

/-- The socket that opening a surrogate gives. -/
def offeredSocket (io : LocalIo) : SurrogateKind → Option UdpEndpoint
  | .node => io.nodeSockets.map RemoteNodeSurrogate.measurementSocket
  | .measurement => io.measurementSocket

/-- The surrogate that a tunnel message goes out through. -/
def portKind (type : TunnelMessageType) : SurrogateKind :=
  if type = .measurementPing then .measurement else .node

/-- The port that is opened while a tunnel message is handled. -/
def opening? (link : LinkLibrary) (g : TunnelGateway) : GatewayEvent → Option Port
  | .lan _ _ => none
  | .tunnel io message =>
      if (g.destination link message).isSome ∧
          g.socketOf (portKind message.type) message.fromNode = none then
        (offeredSocket io (portKind message.type)).map
          (fun socket ↦ ⟨portKind message.type, message.fromNode, socket⟩)
      else none

/-! ## What an event passes on -/

/-- The port that a datagram comes to, and its sender. -/
def arrival? (g : TunnelGateway) : LanEvent → Option (Port × UdpEndpoint)
  | .measurementSocket node sender _ _ =>
      (g.socketOf .node node).map (fun socket ↦ (⟨.node, node, socket⟩, sender))
  | .measurementSurrogateSocket node sender _ _ =>
      (g.socketOf .measurement node).map (fun socket ↦ (⟨.measurement, node, socket⟩, sender))
  | _ => none

def transfer? (link : LinkLibrary) (g : TunnelGateway) : GatewayEvent → Option Transfer
  | .lan now e =>
      match g.arrival? e, g.lanAction link now e with
      | some (port, sender), .mint _ call => some ⟨port, sender, call⟩
      | some (port, sender), .relay call => some ⟨port, sender, call⟩
      | _, _ => none
  | .tunnel _ _ => none

def isMeasurement : TunnelMessageType → Bool
  | .measurementPing | .measurementPong => true
  | _ => false

/-! ## The endpoint tables -/

/-- The event records the binding. -/
def Records (link : LinkLibrary) (g : TunnelGateway) (e : GatewayEvent) (b : Binding) : Prop :=
  g.announcement? link e = some b ∨ g.mint? link e = some b

theorem records_announce {now : TimePoint} {e : LanEvent} {sender : UdpEndpoint} {ttl : UInt8}
    {state : PeerState} {call : ForwardCall}
    (h : g.lanAction link now e = .announce sender ttl state call) :
    g.Records link (.lan now e) ⟨call.fromNode, state.endpoint⟩ := by
  left
  simp only [announcement?, h]

theorem records_mint {now : TimePoint} {e : LanEvent} {sender : UdpEndpoint}
    {call : ForwardCall} (h : g.lanAction link now e = .mint sender call) :
    g.Records link (.lan now e) ⟨call.fromNode, sender⟩ := by
  right
  simp only [mint?, h]

theorem find_endpoints_next {e : GatewayEvent} {node : NodeId} {endpoints : LocalNodeEndpoints}
    (h : (next (machine link) g e).localNodeIdToEndpointMap.find node = some endpoints) :
    g.localNodeIdToEndpointMap.find node = some endpoints ∨
      g.Records link e ⟨node, endpoints.measurementEndpoint⟩ := by
  cases e with
  | tunnel io message =>
      rw [next_tunnel, (forwardMessageLocally_local link g io message).2.2.1] at h
      exact Or.inl h
  | lan now e =>
      rw [next_lan] at h
      rcases find_endpoints_perform h with
        hold | ⟨sender, ttl, state, call, ha, rfl, rfl⟩ | ⟨sender, call, ha, rfl, rfl⟩
      · exact Or.inl hold
      · exact Or.inr (records_announce ha)
      · exact Or.inr (records_mint ha)

theorem find_key_next {e : GatewayEvent} {key : String} {node : NodeId}
    (h : (next (machine link) g e).localMeasurementEndpointToNodeId.find key = some node) :
    g.localMeasurementEndpointToNodeId.find key = some node ∨
      ∃ endpoint, createKeyFromEndpoint link endpoint = key ∧
        g.Records link e ⟨node, endpoint⟩ := by
  cases e with
  | tunnel io message =>
      rw [next_tunnel, (forwardMessageLocally_local link g io message).2.2.2] at h
      exact Or.inl h
  | lan now e =>
      rw [next_lan] at h
      rcases find_key_perform h with
        hold | ⟨sender, ttl, state, call, ha, rfl, rfl⟩ | ⟨sender, call, ha, rfl, rfl⟩
      · exact Or.inl hold
      · exact Or.inr ⟨state.endpoint, rfl, records_announce ha⟩
      · exact Or.inr ⟨sender, rfl, records_mint ha⟩

/-- One event records a binding as an announcement or for a made-up node, not both. -/
theorem mint?_of_announcement? {e : GatewayEvent} {b : Binding}
    (h : g.announcement? link e = some b) : g.mint? link e = none := by
  cases e with
  | tunnel => cases h
  | lan now e =>
      simp only [announcement?] at h
      simp only [mint?]
      cases ha : g.lanAction link now e with
      | mint =>
          rw [ha] at h
          cases h
      | _ => rfl

/-! ## The surrogates -/

theorem socketOf_withMeasurementSurrogate {node node' : NodeId} {kind : SurrogateKind}
    {socket socket' : UdpEndpoint}
    (h : (g.withMeasurementSurrogate node socket).socketOf kind node' = some socket') :
    g.socketOf kind node' = some socket' ∨
      (g.socketOf .measurement node = none ∧ kind = .measurement ∧ node' = node ∧
        socket' = socket) := by
  cases kind with
  | node => exact Or.inl h
  | measurement =>
      simp only [socketOf, withMeasurementSurrogate, PartialMap.find_emplace] at h
      split at h
      · rename_i hnew
        obtain ⟨rfl, hnone⟩ := hnew
        exact Or.inr ⟨hnone, rfl, rfl, (Option.some.inj h).symm⟩
      · exact Or.inl h

theorem socketOf_withNodeSurrogate {node node' : NodeId} {kind : SurrogateKind}
    {s : RemoteNodeSurrogate} {socket : UdpEndpoint}
    (h : (g.withNodeSurrogate node s).socketOf kind node' = some socket) :
    g.socketOf kind node' = some socket ∨
      (g.socketOf .node node = none ∧ kind = .node ∧ node' = node ∧
        socket = s.measurementSocket) := by
  cases kind with
  | measurement => exact Or.inl h
  | node =>
      simp only [socketOf, withNodeSurrogate, PartialMap.find_emplace] at h
      split at h
      · rename_i hnew
        obtain ⟨rfl, hnone⟩ := hnew
        refine Or.inr ⟨?_, rfl, rfl, (Option.some.inj h).symm⟩
        simp only [socketOf, hnone, Option.map_none]
      · exact Or.inl h

theorem opening?_of_socketOf {io : LocalIo} {message : LocalMessage} {p : Port}
    (hdest : (g.destination link message).isSome = true)
    (hnone : g.socketOf p.kind p.node = none) (hkind : p.kind = portKind message.type)
    (hnode : p.node = message.fromNode) (hsocket : offeredSocket io p.kind = some p.socket) :
    g.opening? link (.tunnel io message) = some p := by
  obtain ⟨kind, node, socket⟩ := p
  dsimp only at hkind hnode hnone hsocket
  subst hkind hnode
  rw [opening?, if_pos ⟨hdest, hnone⟩, hsocket]
  rfl

theorem opening?_spec {e : GatewayEvent} {p : Port} (h : g.opening? link e = some p) :
    ∃ io message, e = .tunnel io message ∧ p.kind = portKind message.type ∧
      p.node = message.fromNode := by
  cases e with
  | lan => cases h
  | tunnel io message =>
      obtain ⟨-, hmap⟩ := Option.ite_none_right_eq_some.mp h
      obtain ⟨socket, -, rfl⟩ := Option.map_eq_some_iff.mp hmap
      exact ⟨io, message, rfl, rfl, rfl⟩

theorem socketOf_next {e : GatewayEvent} {p : Port}
    (h : (next (machine link) g e).socketOf p.kind p.node = some p.socket) :
    g.socketOf p.kind p.node = some p.socket ∨ g.opening? link e = some p := by
  cases e with
  | lan now e =>
      left
      rw [next_lan] at h
      by_cases ha : g.lanAction link now e = .expireRemote
      · rw [ha, perform] at h
        cases hkind : p.kind with
        | node =>
            rw [hkind] at h
            simp only [socketOf, find_nodeSurrogate_pruneRemote] at h
            split at h
            · cases h
            · exact h
        | measurement =>
            rw [hkind] at h
            simp only [socketOf, find_measurementSurrogate_pruneRemote] at h
            split at h
            · cases h
            · exact h
      · obtain ⟨-, hnodes, hmeasurements⟩ := @perform_remote link g now _ ha
        cases hkind : p.kind with
        | node => rwa [hkind, socketOf, hnodes] at h
        | measurement => rwa [hkind, socketOf, hmeasurements] at h
  | tunnel io message =>
      rw [next_tunnel] at h
      have hdelivery := delivery link g io message
      generalize (g.forwardMessageLocally link io message).1 = g' at hdelivery h
      generalize (g.forwardMessageLocally link io message).2.1 = buffer at hdelivery
      generalize (g.forwardMessageLocally link io message).2.2 = out at hdelivery
      have hnode {dest : UdpEndpoint} {s : RemoteNodeSurrogate}
          (htype : message.type ≠ .measurementPing)
          (hdest : g.destination link message = some dest)
          (hsurrogate : g.nodeSurrogate io message.fromNode = some s)
          (h : (g.withNodeSurrogate message.fromNode s).socketOf p.kind p.node =
            some p.socket) :
          g.socketOf p.kind p.node = some p.socket ∨
            g.opening? link (.tunnel io message) = some p := by
        rcases socketOf_withNodeSurrogate h with hold | ⟨hnone, hkind, hnode, hsocket⟩
        · exact Or.inl hold
        · right
          have hfind : g.mRemoteNodeIdToRemoteNodeSurrogate.find message.fromNode = none := by
            simpa only [socketOf, Option.map_eq_none_iff] using hnone
          rw [nodeSurrogate, hfind, Option.none_or] at hsurrogate
          apply opening?_of_socketOf (hdest ▸ rfl)
          · rw [hkind, hnode]
            exact hnone
          · rw [hkind, portKind, if_neg htype]
          · exact hnode
          · rw [hkind, offeredSocket, hsurrogate, hsocket]
            rfl
      cases hdelivery with
      | unaddressed | pingUnopened | unopened => exact Or.inl h
      | @ping dest socket htype hdest hsocket =>
          rcases socketOf_withMeasurementSurrogate h with hold | ⟨hnone, hkind, hnode', heq⟩
          · exact Or.inl hold
          · right
            rw [measurementSurrogate, show g.mRemoteNodeIdToRemoteMeasurementSurrogate.find
              message.fromNode = none from hnone, Option.none_or] at hsocket
            apply opening?_of_socketOf (hdest ▸ rfl)
            · rw [hkind, hnode']
              exact hnone
            · rw [hkind, portKind, if_pos htype]
            · exact hnode'
            · rw [hkind, offeredSocket, hsocket, heq]
      | unroutable htype hdest hsurrogate hlocal => exact hnode htype hdest hsurrogate h
      | delivered htype hdest hsurrogate hlocal =>
          rw [observe_fst] at h
          exact hnode htype hdest hsurrogate h

/-! ## Measurement messages -/

theorem arrival?_spec {e : LanEvent} {p : Port} {sender : UdpEndpoint}
    (h : g.arrival? e = some (p, sender)) :
    g.socketOf p.kind p.node = some p.socket ∧ ∃ datagram drawn,
      g.measurementMessage? e = some (sender, datagram, p.node, drawn) := by
  cases e with
  | measurementSocket node sender' datagram drawn =>
      obtain ⟨socket, hsocket, heq⟩ := Option.map_eq_some_iff.mp h
      cases heq
      refine ⟨hsocket, datagram, drawn, if_pos ?_⟩
      obtain ⟨s, hs, -⟩ := Option.map_eq_some_iff.mp hsocket
      rw [hasRemoteNodeSurrogate, hs]
      rfl
  | measurementSurrogateSocket node sender' datagram drawn =>
      obtain ⟨socket, hsocket, heq⟩ := Option.map_eq_some_iff.mp h
      cases heq
      refine ⟨hsocket, datagram, drawn, if_pos ?_⟩
      rw [show g.mRemoteNodeIdToRemoteMeasurementSurrogate.find node = some socket from hsocket]
      rfl
  | _ => cases h

theorem exists_arrival? {e : LanEvent} {sender : UdpEndpoint} {datagram : Datagram}
    {toNode drawn : NodeId}
    (h : g.measurementMessage? e = some (sender, datagram, toNode, drawn)) :
    ∃ p, g.arrival? e = some (p, sender) := by
  cases e with
  | measurementSocket node sender' datagram' drawn' =>
      obtain ⟨hsurrogate, heq⟩ := Option.ite_none_right_eq_some.mp h
      cases heq
      obtain ⟨s, hs⟩ := Option.isSome_iff_exists.mp hsurrogate
      refine ⟨⟨.node, toNode, s.measurementSocket⟩, ?_⟩
      simp only [arrival?, socketOf, hs, Option.map_some]
  | measurementSurrogateSocket node sender' datagram' drawn' =>
      obtain ⟨hsurrogate, heq⟩ := Option.ite_none_right_eq_some.mp h
      cases heq
      obtain ⟨socket, hsocket⟩ := Option.isSome_iff_exists.mp hsurrogate
      refine ⟨⟨.measurement, toNode, socket⟩, ?_⟩
      simp only [arrival?, socketOf, hsocket, Option.map_some]
  | _ => cases h

/-- What goes into the tunnel from a measurement socket names the node of the port,
and its sender is the one that the table has for it or that it is made up for. -/
theorem transfer?_spec {e : GatewayEvent} {t : Transfer} (h : g.transfer? link e = some t) :
    g.socketOf t.port.kind t.port.node = some t.port.socket ∧
      t.call.toNode = some t.port.node ∧
      ((t.call.type = .measurementPing ∧ g.mint? link e = some ⟨t.call.fromNode, t.sender⟩) ∨
        g.localMeasurementEndpointToNodeId.find (createKeyFromEndpoint link t.sender) =
          some t.call.fromNode) := by
  cases e with
  | tunnel => cases h
  | lan now e =>
      simp only [transfer?] at h
      cases harrival : g.arrival? e with
      | none =>
          rw [harrival] at h
          cases h
      | some r =>
          obtain ⟨p, sender⟩ := r
          obtain ⟨hsocket, datagram, drawn, hmessage⟩ := arrival?_spec harrival
          rw [harrival] at h
          have hreading := lanReading link g now e
          simp only [mint?]
          generalize g.lanAction link now e = a at h hreading ⊢
          cases hreading with
          | minted hmessage' hping hkey =>
              obtain rfl := Option.some.inj h
              rw [hmessage] at hmessage'
              cases hmessage'
              exact ⟨hsocket, rfl, Or.inl ⟨rfl, rfl⟩⟩
          | relayed hmessage' hkey =>
              obtain rfl := Option.some.inj h
              rw [hmessage] at hmessage'
              cases hmessage'
              exact ⟨hsocket, rfl, Or.inr hkey⟩
          | _ => cases h

theorem transfer?_of_mint? {e : GatewayEvent} {b : Binding} (h : g.mint? link e = some b) :
    ∃ t, g.transfer? link e = some t ∧ t.call.type = .measurementPing ∧
      t.sender = b.endpoint := by
  cases e with
  | tunnel => cases h
  | lan now e =>
      have hreading := lanReading link g now e
      simp only [mint?] at h
      simp only [transfer?]
      generalize g.lanAction link now e = a at h hreading ⊢
      cases hreading with
      | minted hmessage hping hkey =>
          obtain ⟨p, harrival⟩ := exists_arrival? hmessage
          obtain rfl := Option.some.inj h
          exact ⟨_, by rw [harrival], rfl, rfl⟩
      | _ => cases h

/-- Only what comes to a measurement socket goes into the tunnel as a measurement. -/
theorem transfer?_of_forward {now : TimePoint} {e : LanEvent} {call : ForwardCall}
    (h : .forward call ∈ emit (machine link) g (.lan now e))
    (htype : isMeasurement call.type = true) :
    ∃ t, g.transfer? link (.lan now e) = some t ∧ t.call = call := by
  have h := forward_mem_emit_lan.mp h
  have hreading := lanReading link g now e
  simp only [transfer?]
  generalize g.lanAction link now e = a at h hreading ⊢
  cases hreading with
  | minted hmessage | relayed hmessage =>
      obtain ⟨p, harrival⟩ := exists_arrival? hmessage
      have hcall := Option.some.inj h
      exact ⟨_, by rw [harrival], hcall⟩
  | @announced _ sender datagram toNode header payload state hmessage hheader =>
      obtain rfl := Option.some.inj h
      cases toNode <;> cases htype
  | left hmessage =>
      obtain rfl := Option.some.inj h
      cases htype
  | _ => cases h

theorem destination_of_isMeasurement {message : LocalMessage}
    (htype : isMeasurement message.type = true) {dest : UdpEndpoint}
    (h : g.destination link message = some dest) :
    ∃ target endpoints, message.toNode = some target ∧
      g.localNodeIdToEndpointMap.find target = some endpoints ∧
      endpoints.measurementEndpoint = dest := by
  have hendpoints : ∃ endpoints,
      message.toNode.bind g.localNodeIdToEndpointMap.find = some endpoints ∧
        endpoints.measurementEndpoint = dest := by
    unfold destination at h
    cases hkind : message.type with
    | measurementPing | measurementPong =>
        rw [hkind] at h
        cases hfind : message.toNode.bind g.localNodeIdToEndpointMap.find with
        | none =>
            rw [hfind] at h
            cases h
        | some endpoints =>
            rw [hfind] at h
            exact ⟨endpoints, rfl, Option.some.inj h⟩
    | _ =>
        rw [hkind] at htype
        cases htype
  obtain ⟨endpoints, hbind, hdest⟩ := hendpoints
  obtain ⟨target, htarget, hfind⟩ := Option.bind_eq_some_iff.mp hbind
  exact ⟨target, endpoints, htarget, hfind, hdest⟩

theorem measurementSurrogate_withMeasurementSurrogate {io : LocalIo} {node : NodeId}
    {socket : UdpEndpoint} (h : g.measurementSurrogate io node = some socket) :
    (g.withMeasurementSurrogate node socket).socketOf .measurement node = some socket := by
  unfold measurementSurrogate at h
  simp only [socketOf, withMeasurementSurrogate, PartialMap.find_emplace, true_and]
  cases hold : g.mRemoteNodeIdToRemoteMeasurementSurrogate.find node with
  | none => rfl
  | some socket' =>
      rw [hold, Option.some_or] at h
      exact h

theorem eq_of_mem_sendUdpMessage {io : LocalIo} {routing : RoutingResult}
    {buffer : MessageBuffer} {size : ℕ} {source dest : UdpEndpoint} {bytes : List UInt8}
    (h : .send source bytes dest ∈ sendUdpMessage io routing buffer size) :
    source = routing.socket ∧ dest = routing.endpoint := by
  unfold sendUdpMessage at h
  split at h
  · cases h
  · obtain ⟨rfl, -, rfl⟩ := GatewayOutput.send.inj (List.mem_singleton.mp h)
    exact ⟨rfl, rfl⟩

/-- What comes out of the tunnel goes through the port of its sender to the endpoint
that the table has for its target. -/
theorem send_of_measurement {io : LocalIo} {message : LocalMessage} {source dest : UdpEndpoint}
    {bytes : List UInt8}
    (h : .send source bytes dest ∈ emit (machine link) g (.tunnel io message))
    (htype : isMeasurement message.type = true) :
    (next (machine link) g (.tunnel io message)).socketOf (portKind message.type)
        message.fromNode = some source ∧
      ∃ target endpoints, message.toNode = some target ∧
        g.localNodeIdToEndpointMap.find target = some endpoints ∧
        g.localEndpoint endpoints.measurementEndpoint = some dest := by
  change .send source bytes dest ∈ (g.forwardMessageLocally link io message).2.2 at h
  rw [next_tunnel]
  have hdelivery := delivery link g io message
  generalize (g.forwardMessageLocally link io message).1 = g' at hdelivery ⊢
  generalize (g.forwardMessageLocally link io message).2.1 = buffer at hdelivery
  generalize (g.forwardMessageLocally link io message).2.2 = out at hdelivery h
  cases hdelivery with
  | unaddressed | pingUnopened | unopened | unroutable => cases h
  | @ping d socket hping hdest hsocket =>
      obtain ⟨target, endpoints, htarget, hfind, rfl⟩ := destination_of_isMeasurement htype hdest
      cases hlocal : g.localEndpoint endpoints.measurementEndpoint with
      | none =>
          rw [hlocal] at h
          cases h
      | some e =>
          rw [hlocal] at h
          obtain ⟨rfl, rfl⟩ := eq_of_mem_sendUdpMessage h
          refine ⟨?_, target, endpoints, htarget, hfind, hlocal⟩
          rw [portKind, if_pos hping]
          exact measurementSurrogate_withMeasurementSurrogate hsocket
  | @delivered d e s hnot hdest hsurrogate hlocal =>
      obtain ⟨target, endpoints, htarget, hfind, rfl⟩ := destination_of_isMeasurement htype hdest
      have hpong : message.type = .measurementPong := by
        cases hkind : message.type <;> simp [hkind, isMeasurement] at htype hnot ⊢
      rcases List.mem_append.mp h with hobserved | hsent
      · unfold observe at hobserved
        rw [hpong] at hobserved
        cases hobserved
      · obtain ⟨rfl, rfl⟩ := eq_of_mem_sendUdpMessage hsent
        refine ⟨?_, target, endpoints, htarget, hfind, hlocal⟩
        rw [portKind, if_neg hnot, observe_fst]
        simp only [socketOf, nodeSurrogate_withNodeSurrogate hsurrogate, hpong, if_true,
          Option.map_some]

end TunnelGateway

end LinkExtender
