import LinkExtender.UdpTunnel.PeerTable

/-!
# What a received message reads of its datagram

The datagram is padded to a full buffer before it is decapsulated, and the size
that it announces travels to the gateways as it was read.
-/

namespace LinkExtender

namespace UdpTunnel

open EventMachine

/-- The datagram is as long as the message's header and announced size. -/
def Fits (datagram : Datagram) (message : LocalMessage) : Prop :=
  tunnelHeaderSize message.type + message.size ≤ datagram.bytes.length

instance (datagram : Datagram) (message : LocalMessage) :
    Decidable (Fits datagram message) :=
  inferInstanceAs (Decidable (_ ≤ _))

/-- `[messageBegin, messageEnd)` lies in the buffer and holds bytes that were
received behind the header. -/
structure InBounds (datagram : Datagram) (message : LocalMessage) : Prop where
  fits : Fits datagram message
  received : message.buffer.bytes.take message.size <+:
    datagram.bytes.drop (tunnelHeaderSize message.type)

/-- Local messages stay inside their datagram, and a datagram that is too short
for what it announces changes nothing, not even when the peer was seen last. -/
structure ReceivesInBounds (t : UdpTunnel) (now : TimePoint) (sender : UdpEndpoint)
    (datagram : Datagram) : Prop where
  bounds : ∀ message, .forwardLocally message ∈ (t.receive now sender datagram).2 →
    InBounds datagram message
  short : ∀ message, messageOf datagram = some message → ¬ Fits datagram message →
    t.receive now sender datagram = (t, [])

theorem inBounds_of_fits {datagram : Datagram} {message : LocalMessage}
    (hmessage : messageOf datagram = some message) (hfits : Fits datagram message) :
    InBounds datagram message := by
  refine ⟨hfits, ?_⟩
  obtain ⟨context, hdecap, -, -⟩ :=
    exists_decapsulate (MessageBuffer.ofBytes datagram.bytes)
  rw [messageOf, hdecap] at hmessage
  obtain rfl := Option.some.inj hmessage
  simp only [Fits] at hfits ⊢
  have hpayload : (datagram.bytes ++ List.replicate
        (kMaxMessageSize - datagram.bytes.length) 0).drop (tunnelHeaderSize context.type) =
      datagram.bytes.drop (tunnelHeaderSize context.type) ++
        List.replicate (kMaxMessageSize - datagram.bytes.length) 0 :=
    List.drop_append_of_le_length (by omega)
  have hlen : (datagram.bytes.drop (tunnelHeaderSize context.type) ++ List.replicate
      (kMaxMessageSize - datagram.bytes.length) (0 : UInt8)).length ≤ kMaxMessageSize := by
    have hle := datagram.size_le
    simp only [List.length_append, List.length_drop, List.length_replicate]
    omega
  rw [MessageBuffer.bytes_ofBytes datagram.size_le, hpayload,
    MessageBuffer.bytes_ofBytes hlen, List.append_assoc,
    List.take_append_of_le_length (by rw [List.length_drop]; omega)]
  exact List.take_prefix _ _

/-! ## From a connected peer -/

/-- What a datagram from a connected peer does: handshake messages refresh the
peer, `TUNNEL_BYE` disconnects it and everything else is handed on. -/
theorem receive_of_connected {t : UdpTunnel} {sender : UdpEndpoint} {idx : ℕ}
    {peer : PeerEntry} (hpeer : t.peer? sender = some (idx, peer))
    (hstate : peer.state = .connected) {datagram : Datagram} {message : LocalMessage}
    (hmessage : messageOf datagram = some message) (now : TimePoint) :
    ((message.type = .tunnelHello ∨ message.type = .tunnelKeepalive) ∧
      t.receive now sender datagram =
        (t.setPeer idx { peer with lastSeen := now }, [])) ∨
    (message.type = .tunnelBye ∧ (t.receive now sender datagram).1.mPeers =
      (t.setPeer idx { peer with state := .disconnected }).mPeers ∧
      (t.receive now sender datagram).2 = []) ∨
    (message.type.isControl = false ∧
      (t.receive now sender datagram).2 = [.forwardLocally message]) := by
  obtain ⟨message', hmessage', heq⟩ := receive_eq_dispatch t now sender datagram
  obtain rfl : message' = message := Option.some.inj (hmessage'.symm.trans hmessage)
  rw [heq]
  cases htype : message'.type with
  | tunnelHello =>
      refine Or.inl ⟨Or.inl rfl, ?_⟩
      simp only [dispatch, htype, handleHello, hpeer, hstate, if_true]
  | tunnelKeepalive =>
      refine Or.inl ⟨Or.inr rfl, ?_⟩
      simp only [dispatch, htype, handleKeepalive, hpeer, hstate, if_true]
  | tunnelBye =>
      refine Or.inr (Or.inl ⟨rfl, ?_, ?_⟩) <;>
        simp only [dispatch, htype, handleBye, hpeer]
  | _ =>
      have hcontrol : message'.type.isControl = false := by rw [htype]; rfl
      refine Or.inr (Or.inr ⟨rfl, ?_⟩)
      simp only [dispatch_of_data hcontrol, handleData, hpeer, if_pos hstate]

theorem setPeer_eq_self {t : UdpTunnel} {idx : ℕ} {peer new : PeerEntry}
    (hget : t.mPeers[idx]? = some peer) :
    (t.setPeer idx new).mPeers = t.mPeers ↔ new = peer := by
  obtain ⟨hlt, hpeer⟩ := List.getElem?_eq_some_iff.mp hget
  constructor
  · intro hsame
    rw [← hsame, setPeer, List.getElem?_set_self hlt] at hget
    exact Option.some.inj hget
  · rintro rfl
    simp [setPeer, ← hpeer]

/-- A datagram from a connected peer is received in bounds exactly when it fits,
or is a handshake message that arrives at the time of the last one. -/
theorem receivesInBounds_iff {t : UdpTunnel} {now : TimePoint} {sender : UdpEndpoint}
    {datagram : Datagram} {idx : ℕ} {peer : PeerEntry} {message : LocalMessage}
    (hpeer : t.peer? sender = some (idx, peer)) (hstate : peer.state = .connected)
    (hmessage : messageOf datagram = some message) :
    ReceivesInBounds t now sender datagram ↔ Fits datagram message ∨
      ((message.type = .tunnelHello ∨ message.type = .tunnelKeepalive) ∧
        peer.lastSeen = now) := by
  have hget := (peer?_eq_some.mp hpeer).2
  have hcases := receive_of_connected hpeer hstate hmessage now
  constructor
  · intro h
    rw [or_iff_not_imp_left]
    intro hlong
    have hdropped := h.short message hmessage hlong
    rcases hcases with ⟨htype, heq⟩ | ⟨-, hpeers, -⟩ | ⟨-, hout⟩
    · rw [hdropped] at heq
      have hsame := congrArg (fun r ↦ r.1.mPeers) heq
      have hnew := (setPeer_eq_self hget).mp hsame.symm
      exact ⟨htype, (congrArg PeerEntry.lastSeen hnew).symm⟩
    · rw [hdropped] at hpeers
      have hnew := (setPeer_eq_self hget).mp hpeers.symm
      rw [← hnew] at hstate
      cases hstate
    · rw [hdropped] at hout
      cases hout
  · rintro (hfits | ⟨htype, rfl⟩)
    · refine ⟨fun passed hpassed ↦ ?_, fun other hother hlong ↦ ?_⟩
      · rcases hcases with ⟨-, heq⟩ | ⟨-, -, hout⟩ | ⟨-, hout⟩
        · rw [heq] at hpassed
          cases hpassed
        · rw [hout] at hpassed
          cases hpassed
        · rw [hout, List.mem_singleton] at hpassed
          obtain rfl := TunnelOutput.forwardLocally.inj hpassed
          exact inBounds_of_fits hmessage hfits
      · obtain rfl := Option.some.inj (hother.symm.trans hmessage)
        exact absurd hfits hlong
    · have hunchanged : t.receive peer.lastSeen sender datagram = (t, []) := by
        rcases hcases with ⟨-, heq⟩ | ⟨hbye, -⟩ | ⟨hcontrol, -⟩
        · have hself : t.mPeers.set idx peer = t.mPeers :=
            (setPeer_eq_self hget).mpr rfl
          rw [heq]
          simp only [setPeer, hself]
        · rcases htype with htype | htype <;> rw [htype] at hbye <;> cases hbye
        · rcases htype with htype | htype <;> rw [htype] at hcontrol <;> cases hcontrol
      refine ⟨fun passed hpassed ↦ ?_, fun _ _ _ ↦ hunchanged⟩
      rw [hunchanged] at hpassed
      cases hpassed

/-- The state in which the only peer has just connected. -/
def onePeer : UdpTunnel :=
  run machine (create [localhost 1])
    [.receive 0 (localhost 1) (controlDatagram .tunnelHello)]

/-- The broadcast with an empty payload fits into its eleven bytes. -/
theorem receivesInBounds_empty_broadcast :
    ReceivesInBounds onePeer 5 (localhost 1) (controlDatagram .broadcast) :=
  (@receivesInBounds_iff onePeer 5 (localhost 1) (controlDatagram .broadcast) 0
    ⟨localhost 1, .connected, 0⟩
    ⟨.broadcast, default, MessageBuffer.ofBytes [], 0, none⟩
    (by decide +kernel) rfl (by decide +kernel)).mpr (Or.inl (by decide +kernel))

def hollowBroadcast : Datagram :=
  ⟨tunnelHeader .broadcast default none 65535, by
    rw [length_tunnelHeader rfl]
    decide⟩

/-- The announced size reaches the gateways, and the sender is remembered. -/
theorem not_receivesInBounds_hollow :
    ¬ ReceivesInBounds onePeer 5 (localhost 1) hollowBroadcast ∧
    (onePeer.receive 5 (localhost 1) hollowBroadcast).2 =
      [.forwardLocally ⟨.broadcast, default, MessageBuffer.ofBytes [], 65535, none⟩] ∧
    (onePeer.receive 5 (localhost 1) hollowBroadcast).1.remoteNodeIdToPeerIdx.find
      default = some 0 := by
  have hout : (onePeer.receive 5 (localhost 1) hollowBroadcast).2 =
      [.forwardLocally ⟨.broadcast, default, MessageBuffer.ofBytes [], 65535, none⟩] := by
    decide +kernel
  refine ⟨fun h ↦ ?_, hout, by decide +kernel⟩
  have hmem := h.bounds _ (hout ▸ List.mem_singleton_self _)
  exact absurd hmem.fits (by decide +kernel)

end UdpTunnel

end LinkExtender
