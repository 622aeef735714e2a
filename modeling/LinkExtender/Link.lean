import LinkExtender.Wire

/-!
# What the gateway calls of Ableton Link

Ableton Link and asio are not part of this repository, so the gateway is
modelled over any `LinkLibrary`.  `LinkLibrary.version1` reads and writes the
message format that `wireshark_plugin/ablink.lua` dissects.
-/

namespace LinkExtender

inductive LinkMessageType where
  | kAlive
  | kResponse
  | kByeBye
  | other
deriving DecidableEq

/-- The fields of `ableton::discovery::v1::MessageHeader` that are read here. -/
structure MessageHeader where
  messageType : LinkMessageType
  ttl : UInt8
  ident : NodeId
deriving DecidableEq

instance : Inhabited MessageHeader := ⟨⟨.other, 0, default⟩⟩

/-- `ableton::link::PeerState`, without the timeline that nothing here looks at. -/
structure PeerState where
  ident : NodeId
  endpoint : UdpEndpoint
deriving DecidableEq

structure LinkLibrary where
  /-- The header of a discovery message with the bytes behind it; the default
  header where there is none. -/
  parseMessageHeader : List UInt8 → MessageHeader × List UInt8
  /-- `PeerState::fromPayload`, `none` where it throws a `runtime_error`. -/
  fromPayload : NodeId → List UInt8 → Option PeerState
  ident_fromPayload : ∀ {ident payload state},
    fromPayload ident payload = some state → state.ident = ident
  /-- Whether `link::v1::parseMessageHeader` reads the type `kPing`. -/
  isPing : List UInt8 → Bool
  payloadEntryHeaderSize : ℕ
  sizeOfEndpointV4 : UdpEndpoint → ℕ
  sizeOfEndpointV6 : UdpEndpoint → ℕ
  /-- The bytes of `makePayload(MeasurementEndpointV4) +
  makePayload(MeasurementEndpointV6)`: one entry, of the endpoint's family. -/
  endpointPayload : UdpEndpoint → List UInt8
  length_endpointPayload : ∀ endpoint, (endpointPayload endpoint).length =
    payloadEntryHeaderSize + sizeOfEndpointV4 endpoint + sizeOfEndpointV6 endpoint
  multicastEndpointV4 : UdpEndpoint
  isV4_multicastEndpointV4 : multicastEndpointV4.address.isV4 = true
  multicastEndpointV6 : UInt32 → UdpEndpoint
  /-- `asio::ip::address::to_string`. -/
  addressToString : IpAddress → String

namespace LinkLibrary

/-- `measEndpointEntrySize` in `receivePeerState`. -/
def measEndpointEntrySize (link : LinkLibrary) (endpoint : UdpEndpoint) : ℕ :=
  link.payloadEntryHeaderSize + link.sizeOfEndpointV4 endpoint +
    link.sizeOfEndpointV6 endpoint

/-! ## Version 1 of the protocol -/

def protocolHeader : List UInt8 := [0x5f, 0x61, 0x73, 0x64, 0x70, 0x5f, 0x76, 1]

def pingHeader : List UInt8 := [0x5f, 0x6c, 0x69, 0x6e, 0x6b, 0x5f, 0x76, 1, 1]

def keyV4 : List UInt8 := [0x6d, 0x65, 0x70, 0x34]

def keyV6 : List UInt8 := [0x6d, 0x65, 0x70, 0x36]

def messageTypeOf (code : UInt8) : LinkMessageType :=
  if code = 1 then .kAlive
  else if code = 2 then .kResponse
  else if code = 3 then .kByeBye
  else .other

def readHeader (message : List UInt8) : MessageHeader × List UInt8 :=
  if message.take 8 = protocolHeader then
    match message.drop 8 with
    | type :: ttl :: _ :: _ :: rest =>
        match readNodeId rest with
        | some (ident, payload) => (⟨messageTypeOf type, ttl, ident⟩, payload)
        | none => (default, message)
    | _ => (default, message)
  else (default, message)

def addressBytes (address : UInt32) : List UInt8 :=
  [(address >>> 24).toUInt8, (address >>> 16).toUInt8, (address >>> 8).toUInt8,
    address.toUInt8]

def endpointEntry (endpoint : UdpEndpoint) : List UInt8 :=
  match endpoint.address with
  | .v4 address =>
      keyV4 ++ [0, 0, 0, 6] ++ (addressBytes address ++ uint16Bytes endpoint.port.toNat)
  | .v6 bytes _ =>
      keyV6 ++ [0, 0, 0, 18] ++ (bytes.toList ++ uint16Bytes endpoint.port.toNat)

/-- What the payload entry with this key and value makes of the endpoint read
so far.  Entries of other keys are skipped. -/
def readEntry (key value : List UInt8) (endpoint : UdpEndpoint) : Option UdpEndpoint :=
  if key = keyV4 then
    match value with
    | [a, b, c, d, hi, lo] =>
        some ⟨.v4 (a.toUInt32 <<< 24 ||| b.toUInt32 <<< 16 ||| c.toUInt32 <<< 8 |||
          d.toUInt32), hi.toUInt16 <<< 8 ||| lo.toUInt16⟩
    | _ => none
  else if key = keyV6 then
    match readUInt16 (value.drop 16) with
    | some (port, []) =>
        some ⟨.v6 (Vector.ofFn fun i ↦ value.getD i 0) 0, UInt16.ofNat port⟩
    | _ => none
  else some endpoint

/-- The loop of `parsePayload`, with the number of bytes as its bound. -/
def readEntries : ℕ → List UInt8 → UdpEndpoint → Option UdpEndpoint
  | _, [], endpoint => some endpoint
  | n + 1, k₁ :: k₂ :: k₃ :: k₄ :: s₁ :: s₂ :: s₃ :: s₄ :: rest, endpoint =>
      let size := ((s₁.toNat * 256 + s₂.toNat) * 256 + s₃.toNat) * 256 + s₄.toNat
      if size ≤ rest.length then
        match readEntry [k₁, k₂, k₃, k₄] (rest.take size) endpoint with
        | some endpoint => readEntries n (rest.drop size) endpoint
        | none => none
      else none
  | _, _, _ => none

def version1 : LinkLibrary where
  parseMessageHeader := readHeader
  fromPayload ident payload :=
    (readEntries payload.length payload default).map (fun endpoint ↦ ⟨ident, endpoint⟩)
  ident_fromPayload := by
    intro ident payload state h
    obtain ⟨endpoint, -, rfl⟩ := Option.map_eq_some_iff.mp h
    rfl
  isPing message := message.take 9 == pingHeader
  payloadEntryHeaderSize := 8
  sizeOfEndpointV4 endpoint := if endpoint.address.isV4 then 6 else 0
  sizeOfEndpointV6 endpoint := if endpoint.address.isV4 then 0 else 18
  endpointPayload := endpointEntry
  length_endpointPayload := by
    rintro ⟨address, port⟩
    cases address with
    | v4 address => rfl
    | v6 bytes scopeId => simp [endpointEntry, keyV6, IpAddress.isV4]
  multicastEndpointV4 := ⟨.v4 0xe04c4e4b, 20808⟩
  isV4_multicastEndpointV4 := rfl
  multicastEndpointV6 scopeId :=
    ⟨.v6 ⟨#[0xff, 0x12, 0, 0, 0, 0, 0, 0, 0, 0, 0, 0, 0, 0, 0x80, 0x80], rfl⟩ scopeId, 20808⟩
  addressToString
    | .v4 address => ".".intercalate ((addressBytes address).map (fun b ↦ toString b.toNat))
    | .v6 bytes scopeId =>
        ":".intercalate (bytes.toList.map (fun b ↦ toString b.toNat)) ++ "%" ++
          toString scopeId.toNat

/-- A message of a node with the given code, time to live and payload. -/
def discoveryMessage (code ttl : UInt8) (ident : NodeId) (payload : List UInt8) :
    List UInt8 :=
  protocolHeader ++ [code, ttl, 0, 0] ++ (ident.bytes ++ payload)

example : version1.fromPayload default (endpointEntry (localhost 7)) =
    some ⟨default, localhost 7⟩ := by
  decide +kernel

end LinkLibrary

end LinkExtender
