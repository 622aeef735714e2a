import LinkExtender.Site.Delivered
import LinkExtender.UdpTunnel.Receive
import LinkExtender.UdpTunnel.Session

/-!
# What becomes of a failed send

The path of an exception from `socket.send` to the run loop of the context, whose
handler has the gateway of the interface repaired.  `sendUdpMessage` turns it into an
`UdpSendException`, and the `catch (...)` of `forwardMessageLocally` ends its way there.
-/

namespace LinkExtender

open EventMachine

/-- What a call has thrown. -/
inductive Thrown where
  | runtimeError
  | udpSendException (interfaceAddr : IpAddress)
deriving DecidableEq

namespace TunnelGateway

variable {link : LinkLibrary} {g : TunnelGateway} {io : LocalIo} {message : LocalMessage}

/-- `socket.send`. -/
def socketSend (io : LocalIo) (routing : RoutingResult) (buffer : MessageBuffer) (size : ℕ) :
    List GatewayOutput × Option Thrown :=
  if io.sendFails then ([], some .runtimeError)
  else ([.send routing.socket (buffer.bytes.take size) routing.endpoint], none)

/-- `sendUdpMessage`, with what it throws. -/
def trySendUdpMessage (g : TunnelGateway) (io : LocalIo) (routing : RoutingResult)
    (buffer : MessageBuffer) (size : ℕ) : List GatewayOutput × Option Thrown :=
  match socketSend io routing buffer size with
  | (out, none) => (out, none)
  | (out, some _) => (out, some (.udpSendException g.localInterfaceAddress))

/-- Where `resolveDestination` returns `nullopt`.  If it gives nothing otherwise, it has
thrown. -/
def returnsNullopt (g : TunnelGateway) (message : LocalMessage) : Bool :=
  match message.type with
  | .byebye | .broadcast => false
  | _ => !message.toNode.any g.hasLocalNode

/-- The body of the `try` in `forwardMessageLocally`. -/
def tryForwardMessageLocally (link : LinkLibrary) (g : TunnelGateway) (io : LocalIo)
    (message : LocalMessage) :
    TunnelGateway × MessageBuffer × List GatewayOutput × Option Thrown :=
  match g.resolveDestination link io message.type message.fromNode message.toNode with
  | (g', none) =>
      (g', message.buffer, [], if g.returnsNullopt message then none else some .runtimeError)
  | (g, some routing) =>
      let (g, observed) := g.observe link io.now message
      if isSentWhole message.type then
        let (sent, thrown) := g.trySendUdpMessage io routing message.buffer message.size
        (g, message.buffer, observed ++ sent, thrown)
      else
        match g.appendMeasurementEndpoint link io message.fromNode message.buffer
          message.size with
        | (g, some (buffer, size)) =>
            let (sent, thrown) := g.trySendUdpMessage io routing buffer size
            (g, buffer, observed ++ sent, thrown)
        | (g, none) => (g, message.buffer, observed, some .runtimeError)

/-- `forwardMessageLocally` with its `catch (...)`. -/
def catchForwardMessageLocally (link : LinkLibrary) (g : TunnelGateway) (io : LocalIo)
    (message : LocalMessage) :
    TunnelGateway × MessageBuffer × List GatewayOutput × Option Thrown :=
  match g.tryForwardMessageLocally link io message with
  | (g, buffer, out, _) => (g, buffer, out, none)

/-- The gateway gets as far as `socket.send`, and this throws. -/
def sendThrows (link : LinkLibrary) (g : TunnelGateway) (io : LocalIo)
    (message : LocalMessage) : Bool :=
  g.takes link { io with sendFails := false } message && io.sendFails

/-! ## One gateway -/

theorem trySendUdpMessage_eq (g : TunnelGateway) (io : LocalIo) (routing : RoutingResult)
    (buffer : MessageBuffer) (size : ℕ) :
    g.trySendUdpMessage io routing buffer size =
      (sendUdpMessage io routing buffer size,
        if io.sendFails then some (.udpSendException g.localInterfaceAddress) else none) := by
  cases hfails : io.sendFails <;> simp [trySendUdpMessage, socketSend, sendUdpMessage, hfails]

theorem catchForwardMessageLocally_eq (link : LinkLibrary) (g : TunnelGateway) (io : LocalIo)
    (message : LocalMessage) :
    g.catchForwardMessageLocally link io message =
      ((g.forwardMessageLocally link io message).1, (g.forwardMessageLocally link io message).2.1,
        (g.forwardMessageLocally link io message).2.2, none) := by
  simp only [catchForwardMessageLocally, tryForwardMessageLocally, forwardMessageLocally]
  rcases g.resolveDestination link io message.type message.fromNode message.toNode with
    ⟨g', routing⟩
  cases routing with
  | none => rfl
  | some routing =>
      by_cases hwhole : isSentWhole message.type = true
      · simp only [hwhole, if_true, trySendUdpMessage_eq]
      · simp only [hwhole, Bool.false_eq_true, if_false]
        rcases (g'.observe link io.now message).1.appendMeasurementEndpoint link io
          message.fromNode message.buffer message.size with ⟨g'', outgoing⟩
        cases outgoing with
        | none => rfl
        | some outgoing => simp only [trySendUdpMessage_eq]

/-- The exception leaves the `try` exactly where the send throws. -/
theorem thrown_tryForwardMessageLocally :
    (g.tryForwardMessageLocally link io message).2.2.2 =
        some (.udpSendException g.localInterfaceAddress) ↔
      g.sendThrows link io message = true := by
  have haddr := (forwardMessageLocally_local link g io message).1
  have hlen := length_datagrams_forwardMessageLocally link g { io with sendFails := false } message
  have hresolve : g.resolveDestination link { io with sendFails := false } message.type
      message.fromNode message.toNode =
        g.resolveDestination link io message.type message.fromNode message.toNode := rfl
  rw [sendThrows]
  simp only [forwardMessageLocally, tryForwardMessageLocally, hresolve] at haddr hlen ⊢
  generalize g.takes link { io with sendFails := false } message = taken at hlen ⊢
  generalize g.resolveDestination link io message.type message.fromNode message.toNode = result
    at haddr hlen ⊢
  obtain ⟨g', routing⟩ := result
  cases routing with
  | none =>
      cases taken with
      | true => simp [datagrams] at hlen
      | false => cases hnull : g.returnsNullopt message <;> simp
  | some routing =>
      have hsent (buffer : MessageBuffer) (size : ℕ) :
          (datagrams ((g'.observe link io.now message).2 ++
            sendUdpMessage { io with sendFails := false } routing buffer size)).length = 1 := by
        rw [datagrams, List.filterMap_append, ← datagrams, ← datagrams, datagrams_observe,
          datagrams_sendUdpMessage]
        rfl
      have hthrown {addr : IpAddress} (haddr : addr = g.localInterfaceAddress)
          (htaken : 1 = taken.toNat) :
          (if io.sendFails then some (Thrown.udpSendException addr) else none) =
              some (.udpSendException g.localInterfaceAddress) ↔
            (taken && io.sendFails) = true := by
        obtain rfl : taken = true := by
          cases taken with
          | true => rfl
          | false => cases htaken
        cases io.sendFails <;> simp [haddr]
      by_cases hwhole : isSentWhole message.type = true
      · simp only [hwhole, if_true, hsent, trySendUdpMessage_eq] at haddr hlen ⊢
        exact hthrown haddr hlen
      · have happend : (g'.observe link io.now message).1.appendMeasurementEndpoint link
            { io with sendFails := false } message.fromNode message.buffer message.size =
              (g'.observe link io.now message).1.appendMeasurementEndpoint link io
                message.fromNode message.buffer message.size := rfl
        simp only [hwhole, Bool.false_eq_true, if_false, happend] at haddr hlen ⊢
        generalize (g'.observe link io.now message).1.appendMeasurementEndpoint link io
          message.fromNode message.buffer message.size = appended at haddr hlen ⊢
        obtain ⟨g'', outgoing⟩ := appended
        cases outgoing with
        | none =>
            simp only [datagrams_observe, List.length_nil] at hlen
            cases taken with
            | true => cases hlen
            | false => simp
        | some outgoing =>
            simp only [hsent, trySendUdpMessage_eq] at haddr hlen ⊢
            exact hthrown haddr hlen

end TunnelGateway

namespace Site

open TunnelGateway

variable {link : LinkLibrary} {s : Site} {now : TimePoint} {sender : UdpEndpoint}
  {datagram : Datagram} {ios : ℕ → LocalIo}

/-! ## From the gateways to the run loop -/

/-- The loop of `forward_locally`, which an exception leaves at once. -/
def tryForwardLocally (link : LinkLibrary) (ios : ℕ → LocalIo) :
    ℕ → List TunnelGateway → LocalMessage →
      List TunnelGateway × List SiteOutput × Option Thrown
  | _, [], _ => ([], [], none)
  | i, g :: gs, message =>
      match g.catchForwardMessageLocally link (ios i) message with
      | (g, _, out, some thrown) => (g :: gs, out.map (.gateway i), some thrown)
      | (g, buffer, out, none) =>
          let (gs, rest, thrown) :=
            tryForwardLocally link ios (i + 1) gs { message with buffer := buffer }
          (g :: gs, out.map (.gateway i) ++ rest, thrown)

/-- `handleReceive` does what the tunnel does in order.  `sendRaw` throws nothing. -/
def tryDeliver (link : LinkLibrary) (ios : ℕ → LocalIo) :
    List TunnelGateway → List TunnelOutput →
      List TunnelGateway × List SiteOutput × Option Thrown
  | gs, [] => (gs, [], none)
  | gs, .forwardLocally message :: outs =>
      match tryForwardLocally link ios 0 gs message with
      | (gs, out, some thrown) => (gs, out, some thrown)
      | (gs, out, none) =>
          let (gs, rest, thrown) := tryDeliver link ios gs outs
          (gs, out ++ rest, thrown)
  | gs, out :: outs =>
      let (gs, rest, thrown) := tryDeliver link ios gs outs
      (gs, .tunnel out :: rest, thrown)

/-- What a handler of the context leaves behind. -/
structure HandlerResult where
  site : Site
  outputs : List SiteOutput
  /-- `listen` has been called again. -/
  armed : Bool
  thrown : Option Thrown

/-- The handler that `UdpTunnel::listen` installs. -/
def receiveHandler (link : LinkLibrary) (s : Site) (now : TimePoint) (sender : UdpEndpoint)
    (datagram : Datagram) (ios : ℕ → LocalIo) : HandlerResult :=
  let (tunnel, out) := s.tunnel.receive now sender datagram
  match tryDeliver link ios s.gateways out with
  | (gateways, out, some thrown) => ⟨⟨tunnel, gateways⟩, out, false, some thrown⟩
  | (gateways, out, none) => ⟨⟨tunnel, gateways⟩, out, tunnel.isRunning, none⟩

/-- `UdpSendExceptionHandler`, which the run loop of `Context` calls: the interfaces whose
gateways are scheduled for `repairGateway`. -/
def repairs (result : HandlerResult) : List IpAddress :=
  match result.thrown with
  | some (.udpSendException interfaceAddr) => [interfaceAddr]
  | _ => []

/-- No other exception is caught, and it ends the thread of the context. -/
def survives (result : HandlerResult) : Bool :=
  result.thrown != some .runtimeError

/-- The datagram brings a message that `forward_locally` hands to gateway `i`. -/
def Hands (s : Site) (now : TimePoint) (sender : UdpEndpoint) (datagram : Datagram)
    (message : LocalMessage) (i : ℕ) (g : TunnelGateway) : Prop :=
  message ∈ localCalls (s.tunnel.receive now sender datagram).2 ∧ s.gateways[i]? = some g

/-- What is promised of a datagram that the tunnel receives. -/
structure RepairsGateways (link : LinkLibrary) (s : Site) (now : TimePoint)
    (sender : UdpEndpoint) (datagram : Datagram) (ios : ℕ → LocalIo) : Prop where
  repaired : ∀ message i g, Hands s now sender datagram message i g →
    g.sendThrows link (ios i) message = true →
    (repairs (receiveHandler link s now sender datagram ios)).count g.localInterfaceAddress = 1
  remaining : ∀ message i g, Hands s now sender datagram message i g →
    g.takes link (ios i) message = true →
    (datagrams (outputsAt i (receiveHandler link s now sender datagram ios).outputs)).length = 1
  armed : s.tunnel.isRunning = true →
    (receiveHandler link s now sender datagram ios).armed = true
  survived : survives (receiveHandler link s now sender datagram ios) = true

theorem tryForwardLocally_eq (ios : ℕ → LocalIo) (i : ℕ) (gs : List TunnelGateway)
    (message : LocalMessage) :
    tryForwardLocally link ios i gs message =
      ((forwardLocally link ios i gs message).1, (forwardLocally link ios i gs message).2,
        none) := by
  induction gs generalizing i message with
  | nil => rfl
  | cons g gs ih =>
      simp only [tryForwardLocally, catchForwardMessageLocally_eq, ih]
      rfl

theorem tryDeliver_eq (ios : ℕ → LocalIo) (gs : List TunnelGateway) (out : List TunnelOutput) :
    tryDeliver link ios gs out =
      ((deliver link ios gs out).1, (deliver link ios gs out).2, none) := by
  induction out generalizing gs with
  | nil => rfl
  | cons o out ih =>
      cases o with
      | forwardLocally message =>
          simp only [tryDeliver, tryForwardLocally_eq, ih]
          rfl
      | send | unknownPeer =>
          simp only [tryDeliver, ih]
          rfl

/-- The handler is the step of the site: it throws nothing and listens again. -/
theorem receiveHandler_eq :
    receiveHandler link s now sender datagram ios =
      ⟨next (machine link) s (.tunnel (.receive now sender datagram) ios),
        emit (machine link) s (.tunnel (.receive now sender datagram) ios),
        s.tunnel.isRunning, none⟩ := by
  have hrunning : (s.tunnel.receive now sender datagram).1.isRunning = s.tunnel.isRunning :=
    UdpTunnel.isRunning_next s.tunnel (.receive now sender datagram)
  simp only [receiveHandler, tryDeliver_eq, hrunning]
  rfl

/-- Every gateway has the message to itself. -/
theorem outputsAt_emit_of_hands {message : LocalMessage} {i : ℕ} {g : TunnelGateway}
    (h : Hands s now sender datagram message i g) :
    outputsAt i (emit (machine link) s (.tunnel (.receive now sender datagram) ios)) =
      (g.forwardMessageLocally link (ios i) message).2.2 := by
  obtain ⟨hmessage, hg⟩ := h
  have hlen := length_localCalls_emit_le s.tunnel (.receive now sender datagram)
  have hcalls : localCalls (emit UdpTunnel.machine s.tunnel (.receive now sender datagram)) =
      [message] := by
    obtain ⟨first, hfirst⟩ := List.length_eq_one_iff.mp
      (hlen.antisymm (List.length_pos_of_mem hmessage))
    have hmem : message ∈ [first] := hfirst ▸ hmessage
    rw [hfirst, List.mem_singleton.mp hmem]
  rw [outputsAt_emit, hg, Option.elim_some, eventAt, hcalls]
  rfl

/-- A datagram has the promised effects exactly when `socket.send` throws for none of the
gateways that get its message. -/
theorem repairsGateways_iff :
    RepairsGateways link s now sender datagram ios ↔
      ∀ message i g, Hands s now sender datagram message i g →
        g.sendThrows link (ios i) message = false := by
  constructor
  · intro h message i g hands
    by_contra hthrows
    have hcount := h.repaired message i g hands (by simpa using hthrows)
    rw [receiveHandler_eq] at hcount
    cases hcount
  · intro hnone
    constructor
    · intro message i g hands hthrows
      rw [hnone message i g hands] at hthrows
      cases hthrows
    · intro message i g hands htakes
      rw [receiveHandler_eq, outputsAt_emit_of_hands hands,
        length_datagrams_forwardMessageLocally, htakes]
      rfl
    · intro hrunning
      rw [receiveHandler_eq]
      exact hrunning
    · rw [receiveHandler_eq]
      rfl

/-- A site with one gateway, whose socket cannot send. -/
def oneSocketDown : Site := ⟨UdpTunnel.onePeer, [TunnelGateway.create kLocalIfAddr]⟩

/-- The gateway is not repaired. -/
theorem not_forall_repairsGateways :
    ¬ ∀ s now sender datagram ios, RepairsGateways .version1 s now sender datagram ios := by
  intro h
  have hrepair := h oneSocketDown 0 (localhost 1) (UdpTunnel.controlDatagram .byebye)
    (fun _ ↦ { TunnelGateway.openSockets 10000 with sendFails := true })
  have hcount := hrepair.repaired ⟨.byebye, default, MessageBuffer.ofBytes [], 0, none⟩ 0
    (TunnelGateway.create kLocalIfAddr) ⟨by decide +kernel, rfl⟩ (by decide +kernel)
  revert hcount
  decide +kernel

end Site

end LinkExtender
