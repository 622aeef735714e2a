import LinkExtender.TunnelGateway.Steps

/-!
# What a tunnel message makes a gateway send

At most one datagram: the message is put out where it has a destination, where the
sockets that it needs can be opened and where `send` does not throw.
-/

namespace LinkExtender

namespace TunnelGateway

variable {link : LinkLibrary} {g : TunnelGateway} {io : LocalIo} {message : LocalMessage}

def datagrams (out : List GatewayOutput) : List (UdpEndpoint × List UInt8 × UdpEndpoint) :=
  out.filterMap fun
    | .send source bytes dest => some (source, bytes, dest)
    | _ => none

theorem mem_datagrams {out : List GatewayOutput} {source dest : UdpEndpoint}
    {bytes : List UInt8} :
    (source, bytes, dest) ∈ datagrams out ↔ .send source bytes dest ∈ out := by
  unfold datagrams
  rw [List.mem_filterMap]
  constructor
  · rintro ⟨o, ho, hsend⟩
    cases o <;> cases hsend
    exact ho
  · intro hmem
    exact ⟨_, hmem, rfl⟩

theorem datagrams_observe (now : TimePoint) :
    datagrams (g.observe link now message).2 = [] := by
  unfold observe observeRemotePeerState onRemotePeerLeft
  cases message.type <;> try rfl
  all_goals
    dsimp only
    cases link.fromPayload message.fromNode
      (link.parseMessageHeader (message.buffer.bytes.take message.size)).2 <;> rfl

/-- A message that goes out behind the surrogate of its node finds its way to `dest`. -/
structure Routed (link : LinkLibrary) (g : TunnelGateway) (io : LocalIo) (message : LocalMessage)
    (s : RemoteNodeSurrogate) (dest : UdpEndpoint) : Prop where
  dest : ∃ target, g.destination link message = some target ∧
    g.localEndpoint target = some dest
  surrogate : g.nodeSurrogate io message.fromNode = some s
  sends : io.sendFails = false

/-- The socket that it goes out of. -/
def sourceOf (s : RemoteNodeSurrogate) (type : TunnelMessageType) : UdpEndpoint :=
  if type = .measurementPong then s.measurementSocket else s.stateSocket

theorem Routed.unique {s s' : RemoteNodeSurrogate} {dest dest' : UdpEndpoint}
    (h : Routed link g io message s dest) (h' : Routed link g io message s' dest') :
    s' = s ∧ dest' = dest := by
  obtain ⟨target, htarget, hdest⟩ := h.dest
  obtain ⟨target', htarget', hdest'⟩ := h'.dest
  obtain rfl := Option.some.inj (htarget.symm.trans htarget')
  exact ⟨Option.some.inj (h'.surrogate.symm.trans h.surrogate),
    Option.some.inj (hdest'.symm.trans hdest)⟩

/-- Where there is room for it, the surrogate's endpoint goes out behind the message. -/
theorem take_outgoing {s : RemoteNodeSurrogate} (hwhole : isSentWhole message.type = false)
    (hroom : message.size + (link.endpointPayload s.measurementSocket).length <
      kMaxMessageSize) :
    (outgoing link s message).1.bytes.take (outgoing link s message).2 =
      message.buffer.bytes.take message.size ++ link.endpointPayload s.measurementSocket := by
  simp only [outgoing, hwhole, hroom, and_self, if_true]
  exact MessageBuffer.take_bytes_write_end hroom.le

theorem take_outgoing_of_full {s : RemoteNodeSurrogate}
    (hfull : isSentWhole message.type = true ∨ ¬ message.size +
      (link.endpointPayload s.measurementSocket).length < kMaxMessageSize) :
    (outgoing link s message).1.bytes.take (outgoing link s message).2 =
      message.buffer.bytes.take message.size := by
  have hnot : ¬ (isSentWhole message.type = false ∧ message.size +
      (link.endpointPayload s.measurementSocket).length < kMaxMessageSize) := by
    rintro ⟨hwhole, hroom⟩
    rcases hfull with h | h
    · rw [h] at hwhole
      cases hwhole
    · exact h hroom
  simp only [outgoing, hnot, if_false]

theorem datagrams_sendUdpMessage (routing : RoutingResult) (buffer : MessageBuffer) (size : ℕ) :
    datagrams (sendUdpMessage io routing buffer size) =
      if io.sendFails then []
      else [(routing.socket, buffer.bytes.take size, routing.endpoint)] := by
  unfold sendUdpMessage
  split <;> rfl

theorem datagrams_of_routed (htype : message.type ≠ .measurementPing)
    {s : RemoteNodeSurrogate} {dest : UdpEndpoint} (h : Routed link g io message s dest) :
    (g.forwardMessageLocally link io message).1.mRemoteNodeIdToRemoteNodeSurrogate.find
        message.fromNode = some s ∧
      datagrams (g.forwardMessageLocally link io message).2.2 =
        [(sourceOf s message.type,
          (outgoing link s message).1.bytes.take (outgoing link s message).2, dest)] := by
  obtain ⟨target, htarget, hlocal⟩ := h.dest
  have hdelivery := delivery link g io message
  generalize (g.forwardMessageLocally link io message).1 = g' at hdelivery ⊢
  generalize (g.forwardMessageLocally link io message).2.1 = buffer at hdelivery
  generalize (g.forwardMessageLocally link io message).2.2 = out at hdelivery ⊢
  cases hdelivery with
  | unaddressed hnone => simp [htarget] at hnone
  | pingUnopened htype' => exact absurd htype' htype
  | ping htype' => exact absurd htype' htype
  | unopened _ _ hnone => simp [h.surrogate] at hnone
  | unroutable _ htarget' _ hnone =>
      obtain rfl := Option.some.inj (htarget.symm.trans htarget')
      simp [hlocal] at hnone
  | delivered _ htarget' hsurrogate' hlocal' =>
      obtain rfl := Option.some.inj (htarget.symm.trans htarget')
      obtain rfl := Option.some.inj (hlocal.symm.trans hlocal')
      obtain rfl := Option.some.inj (h.surrogate.symm.trans hsurrogate')
      refine ⟨?_, ?_⟩
      · rw [observe_fst]
        exact nodeSurrogate_withNodeSurrogate h.surrogate
      · rw [datagrams, List.filterMap_append, ← datagrams, ← datagrams, datagrams_observe,
          datagrams_sendUdpMessage, h.sends]
        rfl

theorem datagrams_eq_nil_of_not_routed (htype : message.type ≠ .measurementPing)
    (hnone : ∀ s dest, ¬ Routed link g io message s dest) :
    datagrams (g.forwardMessageLocally link io message).2.2 = [] := by
  have hdelivery := delivery link g io message
  generalize (g.forwardMessageLocally link io message).1 = g' at hdelivery
  generalize (g.forwardMessageLocally link io message).2.1 = buffer at hdelivery
  generalize (g.forwardMessageLocally link io message).2.2 = out at hdelivery ⊢
  cases hdelivery with
  | ping htype' => exact absurd htype' htype
  | @delivered target dest s _ htarget hsurrogate hlocal =>
      have hfails : io.sendFails = true := by
        apply Bool.not_eq_false _ |>.mp
        intro hsends
        exact hnone s dest ⟨⟨target, htarget, hlocal⟩, hsurrogate, hsends⟩
      rw [datagrams, List.filterMap_append, ← datagrams, ← datagrams, datagrams_observe,
        datagrams_sendUdpMessage, hfails]
      rfl
  | _ => rfl

end TunnelGateway

end LinkExtender
