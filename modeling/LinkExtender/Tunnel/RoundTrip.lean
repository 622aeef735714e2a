import LinkExtender.Tunnel

/-!
# The codec of the tunnel

`encapsulate` writes the header, `encapsulatedSize` says where the datagram ends,
`decapsulate` reads the header back from a zeroed buffer.  The three agree on every
message that fits.
-/

namespace LinkExtender

/-- A message that can be put into an envelope: its type says whether it has a
target node, and it fits behind its header. -/
structure TunnelMessage where
  type : TunnelMessageType
  fromNode : NodeId
  toNode : Option NodeId
  payload : List UInt8
  isSome_toNode : toNode.isSome = type.hasToNode
  fits : encapsulatedSize type payload.length ≤ kMaxMessageSize
deriving DecidableEq

namespace TunnelMessage

def context (m : TunnelMessage) (size : ℕ) : MessageContext :=
  ⟨m.fromNode, m.type, m.toNode, size⟩

def size (m : TunnelMessage) : ℕ := encapsulatedSize m.type m.payload.length

def envelope (m : TunnelMessage) : List UInt8 :=
  tunnelHeader m.type m.fromNode m.toNode m.payload.length ++ m.payload

/-- The bytes that `sendRaw` gives to the socket, whatever the context that
`encapsulate` is given says about the size. -/
def datagram? (m : TunnelMessage) (size : ℕ) : Option (List UInt8) :=
  (encapsulate (m.context size) m.payload).map (fun msg ↦ msg.bytes.take m.size)

/-- What `listen` makes of the bytes: the context, and the payload that it bounds. -/
def read (bytes : List UInt8) : Option (MessageContext × List UInt8) :=
  (decapsulate (MessageBuffer.ofBytes bytes)).map
    (fun r ↦ (r.1, r.2.bytes.take r.1.size))

theorem length_envelope (m : TunnelMessage) : m.envelope.length = m.size := by
  rw [envelope, List.length_append, length_tunnelHeader m.isSome_toNode]
  rfl

theorem encapsulatedBytes_eq (m : TunnelMessage) (size : ℕ) :
    encapsulatedBytes (m.context size) m.payload = some m.envelope :=
  encapsulatedBytes_of_isSome m.isSome_toNode size m.payload

theorem datagram?_eq (m : TunnelMessage) (size : ℕ) : m.datagram? size = some m.envelope := by
  have hfits : m.envelope.length ≤ kMaxMessageSize := by
    rw [length_envelope]
    exact m.fits
  rw [datagram?, encapsulate, encapsulatedBytes_eq, Option.map_some, Option.map_some,
    ← length_envelope, MessageBuffer.take_bytes_ofBytes hfits]

theorem read_envelope (m : TunnelMessage) :
    read m.envelope = some (m.context m.payload.length, m.payload) := by
  have hfits : m.envelope.length ≤ kMaxMessageSize := by
    rw [length_envelope]
    exact m.fits
  obtain ⟨buffer, hbuffer, hread⟩ := exists_decapsulate_envelope m.isSome_toNode hfits
  rw [read, envelope, hread, Option.map_some, hbuffer]
  rfl

theorem envelope_injective : Function.Injective envelope := by
  rintro ⟨type, fromNode, toNode, payload, hto, hfits⟩
    ⟨type', fromNode', toNode', payload', hto', hfits'⟩ h
  have hread := read_envelope ⟨type, fromNode, toNode, payload, hto, hfits⟩
  rw [h, read_envelope] at hread
  obtain ⟨hcontext, hpayload⟩ := Prod.mk.inj (Option.some.inj hread)
  obtain ⟨hfrom, htype, hnode, -⟩ := MessageContext.mk.inj hcontext
  obtain rfl : payload' = payload := hpayload
  obtain rfl : type' = type := htype
  obtain rfl : fromNode' = fromNode := hfrom
  obtain rfl : toNode' = toNode := hnode
  rfl

/-- The codec round trip, and with it that no two messages share a datagram. -/
theorem round_trip (size : ℕ) :
    (∀ m : TunnelMessage,
      -- `encapsulate` writes as many bytes as `encapsulatedSize` says
      (∃ bytes, encapsulatedBytes (m.context size) m.payload = some bytes ∧
        bytes.length = encapsulatedSize m.type m.payload.length) ∧
      -- and `decapsulate` reads from them what was written
      ∃ msg, encapsulate (m.context size) m.payload = some msg ∧
        ∃ context buffer,
          decapsulate (MessageBuffer.ofBytes
            (msg.bytes.take (encapsulatedSize m.type m.payload.length))) =
              some (context, buffer) ∧
          context.type = m.type ∧ context.fromNode = m.fromNode ∧
          context.toNode = m.toNode ∧ context.size = m.payload.length ∧
          buffer.bytes.take context.size = m.payload) ∧
    Function.Injective (fun m : TunnelMessage ↦ m.datagram? size) := by
  refine ⟨fun m ↦ ⟨⟨_, encapsulatedBytes_eq m size, length_envelope m⟩, ?_⟩, ?_⟩
  · obtain ⟨msg, hmsg, hsent⟩ := Option.map_eq_some_iff.mp (datagram?_eq m size)
    obtain ⟨⟨context, buffer⟩, hread, heq⟩ := Option.map_eq_some_iff.mp (read_envelope m)
    obtain ⟨rfl, hpayload⟩ := Prod.mk.inj heq
    exact ⟨msg, hmsg, _, buffer, hsent ▸ hread, rfl, rfl, rfl, rfl, hpayload⟩
  · intro m m' h
    simp only [datagram?_eq] at h
    exact envelope_injective (Option.some.inj h)

end TunnelMessage

end LinkExtender
