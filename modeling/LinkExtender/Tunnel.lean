import LinkExtender.DedupCache

/-!
# The tunnel envelope

What the backends share: `Tunnel::encapsulate`, `Tunnel::decapsulate` and the
duplicate filter `Tunnel::shouldForward`.  Every tunnel message starts with its
type and the sending node; unicasts and measurements carry a target node too; a
16-bit size and the payload follow.
-/

namespace LinkExtender

def tunnelMessageTypeCodes : List UInt8 := [105, 121, 107, 98, 117, 122, 109, 114]

/-- `TunnelMessageType`.  The type is cast from a received byte, so values
outside the enumeration occur as well. -/
inductive TunnelMessageType where
  | tunnelHello
  | tunnelBye
  | tunnelKeepalive
  | broadcast
  | unicast
  | byebye
  | measurementPing
  | measurementPong
  | other (code : UInt8) (h : code ∉ tunnelMessageTypeCodes)
deriving DecidableEq

namespace TunnelMessageType

def toUInt8 : TunnelMessageType → UInt8
  | tunnelHello => 105
  | tunnelBye => 121
  | tunnelKeepalive => 107
  | broadcast => 98
  | unicast => 117
  | byebye => 122
  | measurementPing => 109
  | measurementPong => 114
  | other code _ => code

/-- `static_cast<TunnelMessageType>`. -/
def ofUInt8 (code : UInt8) : TunnelMessageType :=
  if h : code ∈ tunnelMessageTypeCodes then
    if code = 105 then tunnelHello
    else if code = 121 then tunnelBye
    else if code = 107 then tunnelKeepalive
    else if code = 98 then broadcast
    else if code = 117 then unicast
    else if code = 122 then byebye
    else if code = 109 then measurementPing
    else measurementPong
  else other code h

@[simp] theorem ofUInt8_toUInt8 (type : TunnelMessageType) :
    ofUInt8 type.toUInt8 = type := by
  cases type with
  | other code h => simp [toUInt8, ofUInt8, h]
  | _ => rfl

/-- The types whose envelope names a target node. -/
def hasToNode : TunnelMessageType → Bool
  | unicast | measurementPing | measurementPong => true
  | _ => false

/-- The types that the tunnel keeps to itself. -/
def isControl : TunnelMessageType → Bool
  | tunnelHello | tunnelBye | tunnelKeepalive => true
  | _ => false

/-- The types that `shouldForward` looks up in the cache. -/
def isDeduplicated : TunnelMessageType → Bool
  | broadcast | unicast | byebye => true
  | _ => false

/-- The types that `forward` sends to one recipient only. -/
def isRouted : TunnelMessageType → Bool
  | unicast | measurementPing => true
  | _ => false

end TunnelMessageType

structure MessageContext where
  fromNode : NodeId
  type : TunnelMessageType
  toNode : Option NodeId
  size : ℕ
deriving DecidableEq

def tunnelHeader (type : TunnelMessageType) (fromNode : NodeId)
    (toNode : Option NodeId) (messageSize : ℕ) : List UInt8 :=
  type.toUInt8 :: (fromNode.bytes ++ (toNode.elim [] NodeId.bytes ++
    uint16Bytes messageSize))

def tunnelHeaderSize (type : TunnelMessageType) : ℕ :=
  1 + 8 + (if type.hasToNode then 8 else 0) + 2

def encapsulatedSize (type : TunnelMessageType) (payloadSize : ℕ) : ℕ :=
  tunnelHeaderSize type + payloadSize

/-- All bytes that `Tunnel::encapsulate` writes from the front of its buffer on,
or nothing where it refuses the message. -/
def encapsulatedBytes (context : MessageContext) (message : List UInt8) :
    Option (List UInt8) :=
  if context.type.hasToNode then
    match context.toNode with
    | some toNode =>
        some (tunnelHeader context.type context.fromNode (some toNode)
          message.length ++ message)
    | none => none
  else
    some (tunnelHeader context.type context.fromNode none message.length ++ message)

def encapsulate (context : MessageContext) (message : List UInt8) :
    Option MessageBuffer :=
  (encapsulatedBytes context message).map MessageBuffer.ofBytes

def decapsulate (msg : MessageBuffer) : Option (MessageContext × MessageBuffer) := do
  let (type, rest) ← readUInt8 msg.bytes
  let type := TunnelMessageType.ofUInt8 type
  let (fromNode, rest) ← readNodeId rest
  let (toNode, rest) ←
    if type.hasToNode then (readNodeId rest).map (fun r ↦ (some r.1, r.2))
    else some (none, rest)
  let (messageSize, rest) ← readUInt16 rest
  if rest = [] then none
  else some (⟨fromNode, type, toNode, messageSize⟩, MessageBuffer.ofBytes rest)

/-- `Tunnel::shouldForward`, on the cache of the tunnel. -/
def shouldForward (mDedupCache : DedupCache) (now : TimePoint) (type : TunnelMessageType)
    (fromNode : NodeId) (message : List UInt8) : Bool × DedupCache :=
  if type.isDeduplicated then
    let r := mDedupCache.isDuplicate now type.toUInt8 fromNode message
    (!r.1, r.2)
  else (true, mDedupCache)

/-- The local messages handed to every gateway: the buffer that
`messageBegin` points into and the size up to `messageEnd`. -/
structure LocalMessage where
  type : TunnelMessageType
  fromNode : NodeId
  buffer : MessageBuffer
  size : ℕ
  toNode : Option NodeId
deriving DecidableEq

/-! ## What the codec lemmas say -/

theorem length_tunnelHeader {type : TunnelMessageType} {fromNode : NodeId}
    {toNode : Option NodeId} {n : ℕ} (hto : toNode.isSome = type.hasToNode) :
    (tunnelHeader type fromNode toNode n).length = tunnelHeaderSize type := by
  cases toNode with
  | none =>
      have h : type.hasToNode = false := by simpa using hto.symm
      simp [tunnelHeader, tunnelHeaderSize, fromNode.size_eq, h]
  | some node =>
      have h : type.hasToNode = true := by simpa using hto.symm
      simp [tunnelHeader, tunnelHeaderSize, fromNode.size_eq, node.size_eq, h]

theorem tunnelHeaderSize_le (type : TunnelMessageType) :
    tunnelHeaderSize type ≤ 19 := by
  unfold tunnelHeaderSize
  split <;> omega

theorem encapsulatedBytes_eq_none {context : MessageContext} {message : List UInt8} :
    encapsulatedBytes context message = none ↔
      context.type.hasToNode = true ∧ context.toNode = none := by
  unfold encapsulatedBytes
  cases context.type.hasToNode <;> cases context.toNode <;> simp

@[simp] theorem encapsulate_eq_none {context : MessageContext}
    {message : List UInt8} :
    encapsulate context message = none ↔
      context.type.hasToNode = true ∧ context.toNode = none := by
  simp [encapsulate, encapsulatedBytes_eq_none]

theorem encapsulatedBytes_eq_some {context : MessageContext}
    {message bytes : List UInt8} (h : encapsulatedBytes context message = some bytes) :
    ∃ toNode : Option NodeId,
      toNode.isSome = context.type.hasToNode ∧
      (context.type.hasToNode = true → toNode = context.toNode) ∧
      bytes = tunnelHeader context.type context.fromNode toNode message.length ++
        message := by
  unfold encapsulatedBytes at h
  cases htype : context.type.hasToNode with
  | false =>
      refine ⟨none, rfl, by simp, ?_⟩
      simpa [htype] using h.symm
  | true =>
      cases hto : context.toNode with
      | none => simp [htype, hto] at h
      | some toNode =>
          refine ⟨some toNode, rfl, by simp, ?_⟩
          simpa [htype, hto] using h.symm

/-- Where the target node is given exactly for the types that need one, nothing is
refused. -/
theorem encapsulatedBytes_of_isSome {type : TunnelMessageType} {fromNode : NodeId}
    {toNode : Option NodeId} (hto : toNode.isSome = type.hasToNode) (size : ℕ)
    (message : List UInt8) :
    encapsulatedBytes ⟨fromNode, type, toNode, size⟩ message =
      some (tunnelHeader type fromNode toNode message.length ++ message) := by
  cases toNode with
  | none => simp [encapsulatedBytes, ← hto]
  | some node => simp [encapsulatedBytes, ← hto]

theorem length_encapsulatedBytes {context : MessageContext}
    {message bytes : List UInt8} (h : encapsulatedBytes context message = some bytes) :
    bytes.length = encapsulatedSize context.type message.length := by
  obtain ⟨toNode, hto, -, rfl⟩ := encapsulatedBytes_eq_some h
  rw [List.length_append, length_tunnelHeader hto, encapsulatedSize]

theorem decapsulate_header {msg : MessageBuffer} {type : TunnelMessageType}
    {fromNode : NodeId} {toNode : Option NodeId} {n : ℕ} {rest : List UInt8}
    (hto : toNode.isSome = type.hasToNode)
    (hmsg : msg.bytes = tunnelHeader type fromNode toNode n ++ rest) :
    decapsulate msg =
      some (⟨fromNode, type, toNode, n % 65536⟩, MessageBuffer.ofBytes rest) := by
  have hlen := msg.size_eq
  have hheader : (tunnelHeader type fromNode toNode n).length = tunnelHeaderSize type :=
    length_tunnelHeader hto
  have hle := tunnelHeaderSize_le type
  have hrest : rest ≠ [] := by
    rintro rfl
    rw [hmsg, List.append_nil, hheader, kMaxMessageSize] at hlen
    omega
  cases toNode with
  | none =>
      have h : type.hasToNode = false := by simpa using hto.symm
      simp [decapsulate, hmsg, tunnelHeader, h, hrest]
  | some node =>
      have h : type.hasToNode = true := by simpa using hto.symm
      simp [decapsulate, hmsg, tunnelHeader, h, hrest]

/-- A message that fits behind its header is read back whole. -/
theorem exists_decapsulate_envelope {type : TunnelMessageType} {fromNode : NodeId}
    {toNode : Option NodeId} {message : List UInt8}
    (hto : toNode.isSome = type.hasToNode)
    (hfits : (tunnelHeader type fromNode toNode message.length ++ message).length ≤
      kMaxMessageSize) :
    ∃ buffer : MessageBuffer, buffer.bytes.take message.length = message ∧
      decapsulate (MessageBuffer.ofBytes
        (tunnelHeader type fromNode toNode message.length ++ message)) =
          some (⟨fromNode, type, toNode, message.length⟩, buffer) := by
  have hsize := hfits
  rw [List.length_append] at hsize
  have hmod : message.length % 65536 = message.length := by
    rw [kMaxMessageSize] at hsize
    omega
  have hbuffer := MessageBuffer.bytes_ofBytes hfits
  rw [List.append_assoc] at hbuffer
  refine ⟨_, ?_, by rw [decapsulate_header hto hbuffer, hmod]⟩
  rw [MessageBuffer.bytes_ofBytes, List.append_assoc, List.take_left]
  simp only [List.length_append, List.length_replicate]
  omega

/-- The type is read off the first byte. -/
theorem type_of_decapsulate {msg : MessageBuffer} {r : MessageContext × MessageBuffer}
    (h : decapsulate msg = some r) {code : UInt8} {tail : List UInt8}
    (hmsg : msg.bytes = code :: tail) : r.1.type = .ofUInt8 code := by
  cases htype : (TunnelMessageType.ofUInt8 code).hasToNode <;>
    simp only [decapsulate, hmsg, htype, readUInt8_cons, Option.bind_eq_bind, Option.bind_some,
      Option.bind_eq_some_iff, Option.ite_none_left_eq_some, if_true, if_false,
      Bool.false_eq_true] at h
  · obtain ⟨_, -, _, -, -, heq⟩ := h
    rw [← Option.some.inj heq]
  · obtain ⟨_, -, _, -, _, -, -, heq⟩ := h
    rw [← Option.some.inj heq]

/-- However long the message is, its type comes through. -/
theorem type_of_encapsulate {context : MessageContext} {message : List UInt8}
    {msg : MessageBuffer} (hmsg : encapsulate context message = some msg)
    {r : MessageContext × MessageBuffer} (hdecap : decapsulate msg = some r) :
    r.1.type = context.type := by
  obtain ⟨bytes, hbytes, rfl⟩ := Option.map_eq_some_iff.mp hmsg
  obtain ⟨toNode, -, -, rfl⟩ := encapsulatedBytes_eq_some hbytes
  obtain ⟨tail, htail⟩ := MessageBuffer.head_ofBytes context.type.toUInt8
    (context.fromNode.bytes ++ (toNode.elim [] NodeId.bytes ++ uint16Bytes message.length) ++
      message)
  have htype := type_of_decapsulate hdecap htail
  rwa [TunnelMessageType.ofUInt8_toUInt8] at htype

/-- A full buffer always holds a header, so `decapsulate` never refuses one. -/
theorem exists_decapsulate (msg : MessageBuffer) :
    ∃ context, decapsulate msg =
        some (context, MessageBuffer.ofBytes
          (msg.bytes.drop (tunnelHeaderSize context.type))) ∧
      context.toNode.isSome = context.type.hasToNode ∧ context.size < 65536 := by
  have hlen : msg.bytes.length = 512 := msg.size_eq
  obtain ⟨code, tail, hmsg⟩ := List.exists_cons_of_length_eq_add_one hlen
  have htail : tail.length = 511 := by simpa [hmsg] using hlen
  obtain ⟨fromNode, hfrom⟩ := @readNodeId_of_length tail (by omega)
  cases htype : (TunnelMessageType.ofUInt8 code).hasToNode with
  | false =>
      obtain ⟨n, hn, hsize⟩ := @readUInt16_of_length (tail.drop 8) (by simp [htail])
      refine ⟨⟨fromNode, .ofUInt8 code, none, n⟩, ?_, by simp [htype], hn⟩
      have hrest : ¬ tail.length ≤ 10 := by omega
      simp [decapsulate, hmsg, hfrom, htype, hsize, tunnelHeaderSize, hrest]
  | true =>
      obtain ⟨toNode, hto⟩ := @readNodeId_of_length (tail.drop 8) (by simp [htail])
      obtain ⟨n, hn, hsize⟩ := @readUInt16_of_length (tail.drop 16) (by simp [htail])
      refine ⟨⟨fromNode, .ofUInt8 code, some toNode, n⟩, ?_, by simp [htype], hn⟩
      have hrest : ¬ tail.length ≤ 18 := by omega
      simp [decapsulate, hmsg, hfrom, htype, hto, hsize, tunnelHeaderSize, hrest]

end LinkExtender
