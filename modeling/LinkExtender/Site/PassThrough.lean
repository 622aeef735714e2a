import LinkExtender.Link.Payload
import LinkExtender.Site.Transparency
import LinkExtender.Site.Pongs

/-!
# Measurements through the tunnel

A ping or a pong enters the tunnel whole.  At the other site a ping goes out as it
came, but a pong is treated like a state message: the endpoint of a surrogate is put
behind it where there is room.
-/

namespace LinkExtender

open EventMachine

namespace TunnelGateway

variable {link : LinkLibrary} {g : TunnelGateway} {io : LocalIo} {message : LocalMessage}

/-- The type that a measurement message has in the tunnel. -/
def measurementType (link : LinkLibrary) (bytes : List UInt8) : TunnelMessageType :=
  if link.isPing bytes then .measurementPing else .measurementPong

theorem measurementType_cases (link : LinkLibrary) (bytes : List UInt8) :
    measurementType link bytes = .measurementPing ∨
      measurementType link bytes = .measurementPong := by
  unfold measurementType
  split
  · exact Or.inl rfl
  · exact Or.inr rfl

theorem hasToNode_measurementType (link : LinkLibrary) (bytes : List UInt8) :
    (measurementType link bytes).hasToNode = true := by
  unfold measurementType
  split <;> rfl

/-- What is handed to the tunnel for a measurement message is that message. -/
theorem call?_of_measurementMessage? {now : TimePoint} {e : LanEvent} {sender : UdpEndpoint}
    {datagram : Datagram} {toNode drawn : NodeId} {call : ForwardCall}
    (hmessage : g.measurementMessage? e = some (sender, datagram, toNode, drawn))
    (hcall : (g.lanAction link now e).call? = some call) :
    call = ⟨measurementType link datagram.bytes, call.fromNode, datagram.bytes, some toNode⟩ := by
  have hstate : g.stateMessage? e = none := by
    cases e <;> first | rfl | cases hmessage
  have hreading := lanReading link g now e
  generalize g.lanAction link now e = a at hreading hcall
  cases hreading with
  | announced hmessage' | left hmessage' => simp [hstate] at hmessage'
  | minted hmessage' hping =>
      obtain rfl := Option.some.inj hcall
      cases hmessage.symm.trans hmessage'
      rw [measurementType, if_pos hping]
  | relayed hmessage' =>
      obtain rfl := Option.some.inj hcall
      cases hmessage.symm.trans hmessage'
      rfl
  | _ => cases hcall

theorem bytes_of_ping (htype : message.type = .measurementPing)
    {d : UdpEndpoint × List UInt8 × UdpEndpoint}
    (hd : d ∈ datagrams (g.forwardMessageLocally link io message).2.2) :
    d.2.1 = message.buffer.bytes.take message.size := by
  have hdelivery := delivery link g io message
  generalize (g.forwardMessageLocally link io message).1 = g' at hdelivery
  generalize (g.forwardMessageLocally link io message).2.1 = buffer at hdelivery
  generalize (g.forwardMessageLocally link io message).2.2 = out at hdelivery hd
  cases hdelivery with
  | @ping dest =>
      cases hlocal : g.localEndpoint dest with
      | none => simp [hlocal, datagrams] at hd
      | some e =>
          rw [hlocal, Option.elim_some, datagrams_sendUdpMessage] at hd
          split at hd
          · cases hd
          · rw [List.mem_singleton.mp hd]
  | unopened htype' | unroutable htype' | delivered htype' => exact absurd htype htype'
  | _ => cases hd

/-- A message goes out as it came if it is a ping or a BYEBYE, or if it leaves no room for
the endpoint. -/
theorem forall_datagrams_eq_iff (hlink : link.ParsesEntries) :
    (∀ d ∈ datagrams (g.forwardMessageLocally link io message).2.2,
        d.2.1 = message.buffer.bytes.take message.size) ↔
      isSentWhole message.type = true ∨ ∀ s dest, Routed link g io message s dest →
        kMaxMessageSize ≤ message.size + (link.endpointPayload s.measurementSocket).length := by
  by_cases hping : message.type = .measurementPing
  · refine iff_of_true (fun d hd ↦ bytes_of_ping hping hd) (Or.inl ?_)
    rw [hping]
    rfl
  · by_cases hrouted : ∃ s dest, Routed link g io message s dest
    · obtain ⟨s, dest, hrouted⟩ := hrouted
      rw [(datagrams_of_routed hping hrouted).2, List.forall_mem_singleton]
      by_cases hfull : isSentWhole message.type = true ∨ ¬ message.size +
          (link.endpointPayload s.measurementSocket).length < kMaxMessageSize
      · refine iff_of_true (take_outgoing_of_full hfull) (hfull.imp_right fun hfull ↦ ?_)
        intro s' dest' h'
        obtain ⟨rfl, -⟩ := hrouted.unique h'
        exact not_lt.mp hfull
      · obtain ⟨hwhole, hroom⟩ := not_or.mp hfull
        rw [not_not] at hroom
        obtain ⟨e, -, hentry⟩ := hlink.entry s.measurementSocket
        refine iff_of_false ?_ (not_or.mpr ⟨hwhole, fun h ↦ ?_⟩)
        · simp only [take_outgoing (Bool.not_eq_true _ |>.mp hwhole) hroom]
          intro h
          have hlen := congrArg List.length h
          rw [List.length_append, ← hentry, e.length_bytes] at hlen
          omega
        · exact absurd hroom (not_lt.mpr (h s dest hrouted))
    · have hnone : ∀ s dest, ¬ Routed link g io message s dest := fun s dest h ↦
        hrouted ⟨s, dest, h⟩
      rw [datagrams_eq_nil_of_not_routed hping hnone]
      exact iff_of_true nofun (Or.inr fun s dest h ↦ absurd h (hnone s dest))

/-! ## Where a measurement message goes -/

/-- The socket that it goes out of: a measurement surrogate's for a ping, and for a pong the
measurement socket of the node's own surrogate. -/
def measurementSource (g : TunnelGateway) (io : LocalIo) (type : TunnelMessageType)
    (fromNode : NodeId) : Option UdpEndpoint :=
  if type = .measurementPing then g.measurementSurrogate io fromNode
  else (g.nodeSurrogate io fromNode).map RemoteNodeSurrogate.measurementSocket

/-- The gateway knows the node, and can send from `source` to the measurement endpoint that
it has recorded for it. -/
structure Reaches (g : TunnelGateway) (io : LocalIo) (type : TunnelMessageType)
    (fromNode toNode : NodeId) (source dest : UdpEndpoint) : Prop where
  recorded : ∃ endpoints, g.localNodeIdToEndpointMap.find toNode = some endpoints ∧
    g.localEndpoint endpoints.measurementEndpoint = some dest
  socket : g.measurementSource io type fromNode = some source
  sends : io.sendFails = false

/-- The bytes are all that is sent, once to the recorded endpoint, where this can be
reached. -/
structure SendsWhole (g : TunnelGateway) (io : LocalIo) (type : TunnelMessageType)
    (fromNode toNode : NodeId) (bytes : List UInt8)
    (sent : List (UdpEndpoint × List UInt8 × UdpEndpoint)) : Prop where
  once : ∀ source dest, g.Reaches io type fromNode toNode source dest →
    sent = [(source, bytes, dest)]
  silent : (∀ source dest, ¬ g.Reaches io type fromNode toNode source dest) → sent = []

section Measurement

variable (htype : message.type = .measurementPing ∨ message.type = .measurementPong)
include htype

/-- Everything that decides whether a datagram is sent decides where it goes. -/
theorem exists_datagrams_eq (link : LinkLibrary) : ∃ bytes,
    datagrams (g.forwardMessageLocally link io message).2.2 =
      ((g.destination link message).bind g.localEndpoint).elim [] fun dest ↦
        (g.measurementSource io message.type message.fromNode).elim [] fun source ↦
          if io.sendFails then [] else [(source, bytes, dest)] := by
  have hdelivery := delivery link g io message
  generalize (g.forwardMessageLocally link io message).1 = g' at hdelivery
  generalize (g.forwardMessageLocally link io message).2.1 = buffer at hdelivery
  generalize (g.forwardMessageLocally link io message).2.2 = out at hdelivery ⊢
  cases hdelivery with
  | unaddressed hdest => exact ⟨[], by simp [hdest, datagrams]⟩
  | @pingUnopened dest hping hdest hsocket =>
      refine ⟨[], ?_⟩
      cases hlocal : g.localEndpoint dest <;>
        simp [measurementSource, hping, hdest, hsocket, hlocal, datagrams]
  | @ping dest socket hping hdest hsocket =>
      refine ⟨message.buffer.bytes.take message.size, ?_⟩
      cases hlocal : g.localEndpoint dest with
      | none => simp [hdest, hlocal, datagrams]
      | some e =>
          rw [Option.elim_some, datagrams_sendUdpMessage]
          simp [measurementSource, hping, hdest, hsocket, hlocal]
  | @unopened dest hping hdest hsurrogate =>
      refine ⟨[], ?_⟩
      cases hlocal : g.localEndpoint dest <;>
        simp [measurementSource, hping, hdest, hsurrogate, hlocal, datagrams]
  | unroutable hping hdest hsurrogate hlocal => exact ⟨[], by simp [hdest, hlocal, datagrams]⟩
  | @delivered dest e s hping hdest hsurrogate hlocal =>
      refine ⟨(outgoing link s message).1.bytes.take (outgoing link s message).2, ?_⟩
      rw [datagrams, List.filterMap_append, ← datagrams, ← datagrams, datagrams_observe,
        List.nil_append, datagrams_sendUdpMessage]
      simp [measurementSource, htype.resolve_left hping, hdest, hsurrogate, hlocal]

variable {toNode : NodeId} (hto : message.toNode = some toNode)
include hto

theorem destination_of_measurement : g.destination link message =
    (g.localNodeIdToEndpointMap.find toNode).map LocalNodeEndpoints.measurementEndpoint := by
  unfold destination
  rw [hto, Option.bind_some]
  rcases htype with htype | htype
  · rw [htype]
    cases g.localNodeIdToEndpointMap.find toNode <;> rfl
  · rw [htype]
    cases g.localNodeIdToEndpointMap.find toNode <;> rfl

theorem reaches_iff (link : LinkLibrary) {source dest : UdpEndpoint} :
    g.Reaches io message.type message.fromNode toNode source dest ↔
      (∃ target, g.destination link message = some target ∧
        g.localEndpoint target = some dest) ∧
      g.measurementSource io message.type message.fromNode = some source ∧
        io.sendFails = false := by
  rw [destination_of_measurement htype hto]
  constructor
  · rintro ⟨⟨endpoints, hfind, hlocal⟩, hsocket, hsends⟩
    exact ⟨⟨_, by rw [hfind]; rfl, hlocal⟩, hsocket, hsends⟩
  · rintro ⟨⟨target, htarget, hlocal⟩, hsocket, hsends⟩
    obtain ⟨endpoints, hfind, rfl⟩ := Option.map_eq_some_iff.mp htarget
    exact ⟨⟨endpoints, hfind, hlocal⟩, hsocket, hsends⟩

theorem exists_datagrams_of_reaches (link : LinkLibrary) : ∃ bytes,
    (∀ source dest, g.Reaches io message.type message.fromNode toNode source dest →
      datagrams (g.forwardMessageLocally link io message).2.2 = [(source, bytes, dest)]) ∧
    ((∀ source dest, ¬ g.Reaches io message.type message.fromNode toNode source dest) →
      datagrams (g.forwardMessageLocally link io message).2.2 = []) := by
  obtain ⟨bytes, hdatagrams⟩ :=
    @exists_datagrams_eq g io message htype link
  refine ⟨bytes, fun source dest h ↦ ?_, fun hnone ↦ ?_⟩
  · obtain ⟨⟨target, htarget, hlocal⟩, hsocket, hsends⟩ :=
      (reaches_iff htype hto link).mp h
    simp [hdatagrams, htarget, hlocal, hsocket, hsends]
  · rw [hdatagrams]
    cases hdest : (g.destination link message).bind g.localEndpoint with
    | none => rfl
    | some dest =>
        cases hsocket : g.measurementSource io message.type message.fromNode with
        | none => rfl
        | some source =>
            have hfails : io.sendFails = true := by
              apply Bool.not_eq_false _ |>.mp
              intro hsends
              exact hnone source dest ((reaches_iff htype hto link).mpr
                ⟨Option.bind_eq_some_iff.mp hdest, hsocket, hsends⟩)
            simp [hfails]

/-- A measurement message is sent as it should be if what is sent has its bytes. -/
theorem sendsWhole_iff_forall (link : LinkLibrary) (bytes : List UInt8) :
    g.SendsWhole io message.type message.fromNode toNode bytes
        (datagrams (g.forwardMessageLocally link io message).2.2) ↔
      ∀ d ∈ datagrams (g.forwardMessageLocally link io message).2.2, d.2.1 = bytes := by
  obtain ⟨sent, honce, hsilent⟩ := @exists_datagrams_of_reaches g io message htype toNode hto link
  by_cases hreaches : ∃ source dest,
      g.Reaches io message.type message.fromNode toNode source dest
  · obtain ⟨source, dest, h⟩ := hreaches
    rw [honce source dest h, List.forall_mem_singleton]
    constructor
    · intro hwhole
      simpa using hwhole.once source dest h
    · rintro rfl
      refine ⟨fun source' dest' h' ↦ ?_, fun hnone ↦ absurd h (hnone source dest)⟩
      rw [← honce source dest h, honce source' dest' h']
  · have hnone : ∀ source dest,
        ¬ g.Reaches io message.type message.fromNode toNode source dest :=
      fun source dest h ↦ hreaches ⟨source, dest, h⟩
    rw [hsilent hnone]
    refine iff_of_true ⟨fun source dest h ↦ absurd h (hnone source dest), fun _ ↦ rfl⟩ ?_
    simp

end Measurement

end TunnelGateway

namespace Site

open TunnelGateway Handshake

/-- A pong as it comes out of the tunnel. -/
def pongOf (fromNode toNode : NodeId) (datagram : Datagram) : LocalMessage :=
  ⟨.measurementPong, fromNode, MessageBuffer.ofBytes datagram.bytes, datagram.bytes.length,
    some toNode⟩

/-- What comes out of the tunnel for a measurement message that a gateway has accepted. -/
theorem messageOf_of_measurement {link : LinkLibrary} {a : Site} {i : ℕ} {g : TunnelGateway}
    (hg : a.gateways[i]? = some g) {now steadyNow : TimePoint} {e : LanEvent}
    {sender : UdpEndpoint} {datagram : Datagram} {toNode drawn : NodeId}
    (hmessage : g.measurementMessage? e = some (sender, datagram, toNode, drawn))
    (hfits : datagram.bytes.length ≤ 493) {call : ForwardCall}
    (hcall : .forward call ∈ emit (TunnelGateway.machine link) g (.lan now e))
    {wire : Datagram} {dest : UdpEndpoint}
    (hwire : SiteOutput.tunnel (.send dest wire.bytes) ∈
      emit (machine link) a (.lan i now e steadyNow)) :
    ∃ buffer : MessageBuffer, buffer.bytes.take datagram.bytes.length = datagram.bytes ∧
      UdpTunnel.messageOf wire = some ⟨measurementType link datagram.bytes, call.fromNode,
        buffer, datagram.bytes.length, some toNode⟩ := by
  have hto := hasToNode_measurementType link datagram.bytes
  have hsize : encapsulatedSize (measurementType link datagram.bytes) datagram.bytes.length ≤
      kMaxMessageSize := by
    rw [encapsulatedSize, tunnelHeaderSize, hto, kMaxMessageSize, if_pos rfl]
    omega
  rw [emit, machine_lan hg] at hwire
  rcases List.mem_append.mp hwire with hgateway | htunnel
  · simp at hgateway
  · obtain ⟨out, hout, heq⟩ := List.mem_map.mp htunnel
    obtain rfl := SiteOutput.tunnel.inj heq
    obtain ⟨t', call', hcall', hforward⟩ := SiteStep.mem_forwardAll hout
    rw [forward_mem_emit_lan] at hcall hcall'
    obtain rfl := Option.some.inj (hcall.symm.trans hcall')
    rw [call?_of_measurementMessage? hmessage hcall] at hforward
    exact UdpTunnel.exists_messageOf_header hto.symm
      (UdpTunnel.bytes_of_send_mem_forward hto.symm hsize hforward)

/-- From socket to socket: a gateway of the other site that can reach the node sends a
measurement message on once and whole exactly when it is a ping, or a pong that leaves no
room for the endpoint of the surrogate it goes out of. -/
theorem sendsWhole_measurement_iff (link : LinkLibrary) (hlink : link.ParsesEntries)
    -- the site that the message leaves
    (a : Site) (i : ℕ) (g : TunnelGateway) (hg : a.gateways[i]? = some g)
    (now steadyNow : TimePoint) (e : LanEvent) (sender : UdpEndpoint) (datagram : Datagram)
    (toNode drawn : NodeId)
    (hmessage : g.measurementMessage? e = some (sender, datagram, toNode, drawn))
    (hfits : datagram.bytes.length ≤ 493) (call : ForwardCall)
    (hcall : .forward call ∈ emit (TunnelGateway.machine link) g (.lan now e))
    -- what it sends
    (wire : Datagram) (dest : UdpEndpoint)
    (hwire : SiteOutput.tunnel (.send dest wire.bytes) ∈
      emit (machine link) a (.lan i now e steadyNow))
    -- the site that it comes to
    (b : Site) (arrival : TimePoint) (origin : UdpEndpoint) (ios : ℕ → LocalIo)
    (hconnected : b.tunnel.isConnected origin = true) (j : ℕ) (h : TunnelGateway)
    (hh : b.gateways[j]? = some h) :
    h.SendsWhole (ios j) (measurementType link datagram.bytes) call.fromNode toNode datagram.bytes
        (datagrams (outputsAt j
          (emit (machine link) b (.tunnel (.receive arrival origin wire) ios)))) ↔
      link.isPing datagram.bytes = true ∨
        ∀ s target, Routed link h (ios j) (pongOf call.fromNode toNode datagram) s target →
          kMaxMessageSize ≤ datagram.bytes.length +
            (link.endpointPayload s.measurementSocket).length := by
  obtain ⟨buffer, hbuffer, hread⟩ := messageOf_of_measurement hg hmessage hfits hcall hwire
  have hdata : (measurementType link datagram.bytes).isControl = false := by
    unfold measurementType
    split <;> rfl
  have hevent := @eventAt_receive b arrival _ _ _ ios hconnected hread hdata j
  have hwhole := @sendsWhole_iff_forall h (ios j) ⟨measurementType link datagram.bytes,
    call.fromNode, buffer, datagram.bytes.length, some toNode⟩
    (measurementType_cases link datagram.bytes) toNode rfl link datagram.bytes
  have hsame := @forall_datagrams_eq_iff link h (ios j) ⟨measurementType link datagram.bytes,
    call.fromNode, buffer, datagram.bytes.length, some toNode⟩ hlink
  rw [hbuffer] at hsame
  rw [outputsAt_emit, hh, Option.elim_some, hevent, Option.elim_some]
  refine hwhole.trans (hsame.trans ?_)
  cases hping : link.isPing datagram.bytes with
  | true => simp [measurementType, hping, isSentWhole]
  | false =>
      -- the buffer does not bear on the way that a pong takes
      have hway : ∀ s target,
          Routed link h (ios j) ⟨.measurementPong, call.fromNode, buffer,
            datagram.bytes.length, some toNode⟩ s target ↔
          Routed link h (ios j) (pongOf call.fromNode toNode datagram) s target :=
        fun s target ↦ ⟨fun hr ↦ ⟨hr.dest, hr.surrogate, hr.sends⟩,
          fun hr ↦ ⟨hr.dest, hr.surrogate, hr.sends⟩⟩
      simp only [measurementType, hping, Bool.false_eq_true, if_false, isSentWhole, false_or, hway]

/-! ## A ping and its pong -/

/-- A site of the round trip `pingPong`, after `n` of its events. -/
def pingPongSite (n : ℕ) (x : Side) : Site :=
  run (Sites.machine .version1) Sites.twoSites (Sites.pingPong.take n) x

def pingEvent : LanEvent :=
  .measurementSocket default (localhost 5000) (Sites.receivedDatagram pingMessage) drawnNode

/-- What the ping makes the gateway of the other site send. -/
def deliveredPing : List (UdpEndpoint × List UInt8 × UdpEndpoint) :=
  datagrams (outputsAt 0 (emit (machine .version1) (pingPongSite 6 .b)
    (.tunnel (.receive 0 (localhost 1)
      (Sites.tunnelDatagram .measurementPing drawnNode (some default) pingMessage))
        (fun _ ↦ openSockets 20000))))

theorem sendsWhole_pingMessage :
    deliveredPing = [(localhost 20000, pingMessage, localhost 20809)] ∧
      ∃ h, (pingPongSite 6 .b).gateways[0]? = some h ∧
        h.SendsWhole (openSockets 20000)
          (measurementType .version1 (Sites.receivedDatagram pingMessage).bytes) drawnNode default
          (Sites.receivedDatagram pingMessage).bytes deliveredPing := by
  refine ⟨by decide +kernel, ?_⟩
  obtain ⟨g, hg⟩ : ∃ g, (pingPongSite 5 .a).gateways[0]? = some g :=
    Option.isSome_iff_exists.mp (by decide +kernel)
  obtain ⟨h, hh⟩ : ∃ h, (pingPongSite 6 .b).gateways[0]? = some h :=
    Option.isSome_iff_exists.mp (by decide +kernel)
  have hmessage : ∀ g ∈ (pingPongSite 5 .a).gateways[0]?, g.measurementMessage? pingEvent =
      some (localhost 5000, Sites.receivedDatagram pingMessage, default, drawnNode) := by
    decide +kernel
  have hcall : ∀ g ∈ (pingPongSite 5 .a).gateways[0]?,
      .forward ⟨.measurementPing, drawnNode, pingMessage, some default⟩ ∈
        emit (TunnelGateway.machine .version1) g (.lan 0 pingEvent) := by
    decide +kernel
  exact ⟨h, hh, (sendsWhole_measurement_iff .version1 LinkLibrary.parsesEntries_version1
    (pingPongSite 5 .a) 0 g hg 0 0 pingEvent (localhost 5000)
    (Sites.receivedDatagram pingMessage) default drawnNode (hmessage g hg) (by decide +kernel)
    ⟨.measurementPing, drawnNode, pingMessage, some default⟩ (hcall g hg)
    (Sites.tunnelDatagram .measurementPing drawnNode (some default) pingMessage) (localhost 2)
    (by decide +kernel) (pingPongSite 6 .b) 0 (localhost 1) (fun _ ↦ openSockets 20000)
    (by decide +kernel) 0 h hh).mpr (Or.inl (by decide +kernel))⟩

/-- The pong of 25 bytes leaves the tunnel with 14 more. -/
theorem datagrams_pongMessage :
    SiteOutput.tunnel (.send (localhost 1)
        (Sites.tunnelDatagram .measurementPong default (some drawnNode)
          Sites.pongMessage).bytes) ∈
      emit (machine .version1) (pingPongSite 7 .b)
        (.lan 0 0 (.measurementSurrogateSocket drawnNode (localhost 20809)
          (Sites.receivedDatagram Sites.pongMessage) default) 0) ∧
    datagrams (outputsAt 0 (emit (machine .version1) (pingPongSite 8 .a)
        (.tunnel (.receive 0 (localhost 2)
          (Sites.tunnelDatagram .measurementPong default (some drawnNode) Sites.pongMessage))
            (fun _ ↦ openSockets 30000)))) =
      [(localhost 10001, Sites.pongMessage ++ LinkLibrary.endpointEntry (localhost 10001),
        localhost 5000)] ∧
    Sites.pongMessage ++ LinkLibrary.endpointEntry (localhost 10001) ≠ Sites.pongMessage := by
  decide +kernel

end Site

end LinkExtender
