import LinkExtender.ShmTunnel
import LinkExtender.Site
import LinkExtender.UdpTunnel.Receive

/-!
# The two backends side by side

What the gateways behind a `ShmTunnel` and behind a `UdpTunnel` are handed when
one remote tunnel sends both the same messages.  The shared-memory client hands
on everything it pops but handshakes and `BYEBYE`s; the UDP tunnel hands on
every data message of a connected peer.  The two sequences of calls therefore
agree exactly when no node leaves.
-/

namespace LinkExtender

open EventMachine

/-! ## The messages between two tunnels -/

/-- The types of the messages that gateways exchange. -/
def TunnelMessageType.isData : TunnelMessageType → Bool
  | broadcast | unicast | byebye | measurementPing | measurementPong => true
  | _ => false

theorem TunnelMessageType.isControl_of_isData {type : TunnelMessageType}
    (h : type.isData = true) : type.isControl = false := by
  cases type <;> simp [isData, isControl] at h ⊢

/-- A message that a gateway hands to its tunnel and that `encapsulate` accepts. -/
structure DataMessage where
  type : TunnelMessageType
  fromNode : NodeId
  toNode : Option NodeId
  payload : List UInt8
  isData : type.isData = true
  hasTarget : type.hasToNode = true → toNode.isSome = true
deriving DecidableEq

namespace DataMessage

def target (m : DataMessage) : Option NodeId :=
  if m.type.hasToNode then m.toNode else none

theorem isSome_target (m : DataMessage) : m.target.isSome = m.type.hasToNode := by
  unfold target
  cases htype : m.type.hasToNode with
  | false => rfl
  | true => exact m.hasTarget htype

def header (m : DataMessage) : List UInt8 :=
  tunnelHeader m.type m.fromNode m.target m.payload.length

theorem length_header (m : DataMessage) : m.header.length = tunnelHeaderSize m.type :=
  length_tunnelHeader m.isSome_target

/-- The buffer that a shared-memory client pushes. -/
def envelope (m : DataMessage) : MessageBuffer := MessageBuffer.ofBytes (m.header ++ m.payload)

/-- What a UDP tunnel hands to its socket. -/
def datagram (m : DataMessage) : Datagram where
  bytes := m.envelope.bytes.take (encapsulatedSize m.type m.payload.length)
  size_le := by simp [m.envelope.size_eq]

/-- The message that the other side reads out of the envelope. -/
def received (m : DataMessage) : LocalMessage where
  type := m.type
  fromNode := m.fromNode
  buffer := MessageBuffer.ofBytes (m.envelope.bytes.drop (tunnelHeaderSize m.type))
  size := m.payload.length % 65536
  toNode := m.target

theorem encapsulate_eq (m : DataMessage) :
    encapsulate ⟨m.fromNode, m.type, m.toNode, 0⟩ m.payload = some m.envelope := by
  unfold encapsulate encapsulatedBytes envelope header target
  cases htype : m.type.hasToNode with
  | false => simp
  | true =>
      obtain ⟨node, hnode⟩ := Option.isSome_iff_exists.mp (m.hasTarget htype)
      simp [hnode]

/-- Nothing is lost by sending only the bytes in use. -/
theorem ofBytes_datagram (m : DataMessage) :
    MessageBuffer.ofBytes m.datagram.bytes = m.envelope := by
  have hlen : encapsulatedSize m.type m.payload.length = (m.header ++ m.payload).length := by
    rw [encapsulatedSize, List.length_append, m.length_header]
  simp only [datagram, hlen, envelope]
  exact MessageBuffer.ofBytes_take_ofBytes _

theorem decapsulate_envelope (m : DataMessage) :
    decapsulate m.envelope =
      some (⟨m.fromNode, m.type, m.target, m.received.size⟩, m.received.buffer) := by
  have hle := tunnelHeaderSize_le m.type
  have hfits : m.header.length ≤ kMaxMessageSize := by
    rw [m.length_header, kMaxMessageSize]
    omega
  have hsplit : m.envelope.bytes =
      m.header ++ m.envelope.bytes.drop (tunnelHeaderSize m.type) := by
    have htake : m.envelope.bytes.take (tunnelHeaderSize m.type) = m.header := by
      rw [← m.length_header, envelope, MessageBuffer.ofBytes, List.take_take,
        min_eq_left hfits, List.append_assoc, List.take_left]
    rw [← htake, List.take_append_drop]
  exact decapsulate_header m.isSome_target hsplit

end DataMessage

theorem ShmTunnel.forward_snd_data (t : ShmTunnel) (now : TimePoint) (m : DataMessage) :
    (t.forward now m.type m.fromNode m.payload m.toNode).2 =
      if (shouldForward t.mDedupCache now m.type m.fromNode m.payload).1 then
        (t.recipients m.type m.toNode).map
          (fun clientIdx ↦ .push clientIdx t.mClientId m.envelope)
      else [] := by
  unfold ShmTunnel.forward
  rw [m.encapsulate_eq]
  rcases shouldForward t.mDedupCache now m.type m.fromNode m.payload with ⟨passes, cache⟩
  cases passes <;> rfl

theorem UdpTunnel.forward_snd_data (t : UdpTunnel) (now : TimePoint) (m : DataMessage) :
    (t.forward now m.type m.fromNode m.payload m.toNode).2 =
      if (shouldForward t.mDedupCache now m.type m.fromNode m.payload).1 then
        (t.recipients m.type m.toNode).map (fun dest ↦ .send dest m.datagram.bytes)
      else [] := by
  unfold UdpTunnel.forward
  rw [m.encapsulate_eq]
  rcases shouldForward t.mDedupCache now m.type m.fromNode m.payload with ⟨passes, cache⟩
  cases passes <;> rfl

/-! ## The shared-memory client -/

namespace ShmTunnel

def localMessage? : ShmOutput → Option LocalMessage
  | .forwardLocally message => some message
  | _ => none

def localCalls (out : List ShmOutput) : List LocalMessage := out.filterMap localMessage?

/-- No turn of the loop in `listen` changes what `stop_listening` changes. -/
theorem isRunning_handlePopped (t : ShmTunnel) (source : ℕ) (msg : MessageBuffer) :
    (t.handlePopped source msg).1.isRunning = t.isRunning := by
  unfold handlePopped handleHello
  repeat' split
  all_goals rfl

theorem localCalls_popped {t : ShmTunnel} (hrun : t.isRunning = true) (source : ℕ)
    (m : DataMessage) :
    localCalls (emit machine t (.popped source m.envelope)) =
      (if m.type ≠ .byebye then some m.received else none).toList := by
  have hdata := m.isData
  simp only [emit, machine, handlePopped, hrun, if_true, m.decapsulate_envelope]
  cases htype : m.type with
  | byebye => simp [localCalls]
  | broadcast | unicast | measurementPing | measurementPong =>
      simp [localCalls, localMessage?, DataMessage.received, htype]
  | _ => simp [htype, TunnelMessageType.isData] at hdata

theorem localCalls_outputs {t : ShmTunnel} (hrun : t.isRunning = true) (source : ℕ)
    (messages : List DataMessage) :
    localCalls (outputs machine t (messages.map (fun m ↦ .popped source m.envelope))) =
      (messages.filter (fun m ↦ m.type ≠ .byebye)).map DataMessage.received := by
  have hseen : localCalls (outputs machine t
        (messages.map (fun m ↦ .popped source m.envelope))) =
      messages.filterMap (fun m ↦ if m.type ≠ .byebye then some m.received else none) := by
    apply filterMap_outputs machine (I := fun t : ShmTunnel ↦ t.isRunning = true)
    · intro t m h
      exact (isRunning_handlePopped t source m.envelope).trans h
    · intro t m h
      exact localCalls_popped h source m
    · exact hrun
  rw [hseen, ← List.filterMap_eq_map, List.filterMap_filter]
  simp

end ShmTunnel

/-! ## The UDP tunnel -/

namespace UdpTunnel

theorem receive_datagram {t : UdpTunnel} {sender : UdpEndpoint}
    (hconn : t.isConnected sender = true) (now : TimePoint) (m : DataMessage) :
    (t.receive now sender m.datagram).1.isConnected sender = true ∧
      (t.receive now sender m.datagram).2 = [.forwardLocally m.received] := by
  obtain ⟨idx, peer, hpeer, hstate⟩ := isConnected_eq_true.mp hconn
  have hmessage : messageOf m.datagram = some m.received := by
    rw [messageOf, m.ofBytes_datagram, m.decapsulate_envelope]
    rfl
  have hcontrol : m.received.type.isControl = false :=
    TunnelMessageType.isControl_of_isData m.isData
  obtain ⟨message, hread, heq⟩ := receive_eq_dispatch t now sender m.datagram
  obtain rfl : message = m.received := Option.some.inj (hread.symm.trans hmessage)
  rw [heq, dispatch_of_data hcontrol, handleData, hpeer]
  simp only [hstate, if_true, and_true]
  exact isConnected_of_peer? hpeer hstate

theorem localCalls_outputs {t : UdpTunnel} {sender : UdpEndpoint}
    (hconn : t.isConnected sender = true) (arrivals : List (TimePoint × DataMessage)) :
    Site.localCalls (outputs machine t
        (arrivals.map (fun a ↦ .receive a.1 sender a.2.datagram))) =
      arrivals.map (fun a ↦ a.2.received) := by
  rw [← @List.filterMap_eq_map _ _ (fun a : TimePoint × DataMessage ↦ a.2.received)]
  apply filterMap_outputs machine (I := fun t : UdpTunnel ↦ t.isConnected sender = true)
  · intro t a h
    exact (receive_datagram h a.1 a.2).1
  · intro t a h
    simp only [emit, machine, (receive_datagram h a.1 a.2).2]
    rfl
  · exact hconn

end UdpTunnel

/-! ## Side by side -/

namespace ShmTunnel

/-- The gateways of a shared-memory client and those of a UDP tunnel are handed
the same messages in the same order. -/
def DeliversAs (s : ShmTunnel) (source : ℕ) (t : UdpTunnel) (sender : UdpEndpoint)
    (arrivals : List (TimePoint × DataMessage)) : Prop :=
  localCalls (outputs machine s (arrivals.map (fun a ↦ .popped source a.2.envelope))) =
    Site.localCalls (outputs UdpTunnel.machine t
      (arrivals.map (fun a ↦ .receive a.1 sender a.2.datagram)))

instance (s : ShmTunnel) (source : ℕ) (t : UdpTunnel) (sender : UdpEndpoint)
    (arrivals : List (TimePoint × DataMessage)) :
    Decidable (s.DeliversAs source t sender arrivals) :=
  inferInstanceAs (Decidable (_ = _))

/-- The backends deliver alike exactly as long as no `BYEBYE` comes in. -/
theorem deliversAs_iff {s : ShmTunnel} (hrun : s.isRunning = true) (source : ℕ)
    {t : UdpTunnel} {sender : UdpEndpoint} (hconn : t.isConnected sender = true)
    (arrivals : List (TimePoint × DataMessage)) :
    s.DeliversAs source t sender arrivals ↔ ∀ a ∈ arrivals, a.2.type ≠ .byebye := by
  have hshm := localCalls_outputs hrun source (arrivals.map Prod.snd)
  rw [List.map_map] at hshm
  rw [DeliversAs, UdpTunnel.localCalls_outputs hconn]
  constructor
  · intro h a ha
    have hlength := congrArg List.length (hshm.symm.trans h)
    rw [List.length_map, List.length_map, ← @List.length_map _ _ arrivals Prod.snd,
      List.length_filter_eq_length_iff] at hlength
    simpa using hlength a.2 (List.mem_map_of_mem ha)
  · intro h
    have hfilter : (arrivals.map Prod.snd).filter (fun m ↦ m.type ≠ .byebye) =
        arrivals.map Prod.snd := by
      apply List.filter_eq_self.mpr
      intro m hm
      obtain ⟨a, ha, rfl⟩ := List.mem_map.mp hm
      simpa using h a ha
    rw [hfilter, List.map_map] at hshm
    exact hshm

/-- A message of the zero node without a payload. -/
def plainMessage (type : TunnelMessageType) (h : type.isData = true) : DataMessage where
  type := type
  fromNode := default
  toNode := some default
  payload := []
  isData := h
  hasTarget := fun _ ↦ rfl

/-- A broadcast and a unicast reach the gateways of both. -/
theorem deliversAs_broadcast_unicast :
    (create 1).DeliversAs 0 UdpTunnel.onePeer (localhost 1)
      [(0, plainMessage .broadcast rfl), (0, plainMessage .unicast rfl)] :=
  (deliversAs_iff rfl 0 (by decide +kernel) _).mpr (by decide)

/-- When a node leaves, only the gateways of the UDP tunnel hear of it. -/
theorem not_deliversAs_byebye :
    ¬ (create 1).DeliversAs 0 UdpTunnel.onePeer (localhost 1)
      [(0, plainMessage .byebye rfl)] := by
  decide +kernel

end ShmTunnel

end LinkExtender
