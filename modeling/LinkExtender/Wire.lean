import Mathlib.Data.List.Basic
import Mathlib.Data.UInt
import Mathlib.Tactic.Cases

/-!
# Addresses, node ids and byte streams

The value types that the extender shares with Ableton Link and asio, and the
fixed-width big-endian byte streams of `NetworkByteStreamSerializable`.
A reader returns `none` where the source throws a `range_error`.
-/

namespace LinkExtender

def kMaxMessageSize : ℕ := 512

/-- Clock readings and durations, in nanoseconds. -/
abbrev TimePoint := ℤ

def seconds (n : ℤ) : TimePoint := n * 1000000000

def milliseconds (n : ℤ) : TimePoint := n * 1000000

structure NodeId where
  bytes : List UInt8
  size_eq : bytes.length = 8
deriving DecidableEq

instance : Inhabited NodeId := ⟨⟨List.replicate 8 0, rfl⟩⟩

/-- `asio::ip::address`: an IPv4 address as one word, or the sixteen bytes and
the scope id of an IPv6 address. -/
inductive IpAddress where
  | v4 (address : UInt32)
  | v6 (bytes : Vector UInt8 16) (scopeId : UInt32)
deriving DecidableEq

namespace IpAddress

def isV4 : IpAddress → Bool
  | v4 _ => true
  | v6 _ _ => false

/-- The /24 network test of `network_v4::is_subnet_of`; only IPv4 addresses
are ever compared. -/
def sameSubnet24 : IpAddress → IpAddress → Bool
  | v4 a, v4 b => a >>> 8 == b >>> 8
  | _, _ => true

end IpAddress

structure UdpEndpoint where
  address : IpAddress
  port : UInt16
deriving DecidableEq

/-- The default-constructed endpoint `0.0.0.0:0`. -/
instance : Inhabited UdpEndpoint := ⟨⟨.v4 0, 0⟩⟩

def localhost (port : UInt16) : UdpEndpoint := ⟨.v4 0x7f000001, port⟩

/-! ## Message buffers -/

structure MessageBuffer where
  bytes : List UInt8
  size_eq : bytes.length = kMaxMessageSize
deriving DecidableEq

namespace MessageBuffer

/-- A zeroed buffer with `bytes` copied to its front.  Bytes beyond the array,
which the source would write out of bounds, are cut off. -/
def ofBytes (bytes : List UInt8) : MessageBuffer :=
  ⟨(bytes ++ List.replicate kMaxMessageSize 0).take kMaxMessageSize, by simp⟩

theorem bytes_ofBytes {bytes : List UInt8} (h : bytes.length ≤ kMaxMessageSize) :
    (ofBytes bytes).bytes =
      bytes ++ List.replicate (kMaxMessageSize - bytes.length) 0 := by
  simp [ofBytes, List.take_append, List.take_of_length_le h]

theorem take_bytes_ofBytes {bytes : List UInt8}
    (h : bytes.length ≤ kMaxMessageSize) :
    (ofBytes bytes).bytes.take bytes.length = bytes := by
  simp [bytes_ofBytes h]

theorem head_ofBytes (code : UInt8) (rest : List UInt8) :
    ∃ tail, (ofBytes (code :: rest)).bytes = code :: tail :=
  ⟨_, List.take_succ_cons⟩

theorem ofBytes_append {front : List UInt8} (h : front.length ≤ kMaxMessageSize)
    (back : List UInt8) : ∃ rest, (ofBytes (front ++ back)).bytes = front ++ rest := by
  refine ⟨(back ++ List.replicate kMaxMessageSize 0).take (kMaxMessageSize - front.length), ?_⟩
  change (front ++ back ++ List.replicate kMaxMessageSize 0).take kMaxMessageSize = _
  rw [List.append_assoc, List.take_append, List.take_of_length_le h]

@[simp] theorem ofBytes_bytes (buf : MessageBuffer) : ofBytes buf.bytes = buf := by
  cases buf with
  | mk bytes size_eq => simp [ofBytes, ← size_eq]

def write (buf : MessageBuffer) (pos : ℕ) (bytes : List UInt8) : MessageBuffer :=
  ofBytes (buf.bytes.take pos ++ (bytes ++ buf.bytes.drop (pos + bytes.length)))

theorem bytes_write {buf : MessageBuffer} {pos : ℕ} {bytes : List UInt8}
    (h : pos + bytes.length ≤ kMaxMessageSize) :
    (buf.write pos bytes).bytes =
      buf.bytes.take pos ++ (bytes ++ buf.bytes.drop (pos + bytes.length)) := by
  have hlen : (buf.bytes.take pos ++ (bytes ++ buf.bytes.drop (pos + bytes.length))).length =
      kMaxMessageSize := by
    simp only [List.length_append, List.length_take, List.length_drop, buf.size_eq]
    omega
  rw [write, bytes_ofBytes hlen.le, hlen]
  simp

theorem length_take_bytes {buf : MessageBuffer} {n : ℕ} (h : n ≤ kMaxMessageSize) :
    (buf.bytes.take n).length = n := by
  rw [List.length_take, buf.size_eq, min_eq_left h]

theorem take_bytes_write {buf : MessageBuffer} {pos n : ℕ} {bytes : List UInt8}
    (h : pos + bytes.length ≤ kMaxMessageSize) (hn : n ≤ pos) :
    (buf.write pos bytes).bytes.take n = buf.bytes.take n := by
  have hpos : (buf.bytes.take pos).length = pos := length_take_bytes (by omega)
  rw [bytes_write h, List.take_append_of_le_length (by omega), List.take_take,
    min_eq_left hn]

theorem take_bytes_write_end {buf : MessageBuffer} {pos : ℕ} {bytes : List UInt8}
    (h : pos + bytes.length ≤ kMaxMessageSize) :
    (buf.write pos bytes).bytes.take (pos + bytes.length) = buf.bytes.take pos ++ bytes := by
  have hlen : (buf.bytes.take pos ++ bytes).length = pos + bytes.length := by
    rw [List.length_append, length_take_bytes (by omega)]
  rw [bytes_write h, ← List.append_assoc, ← hlen, List.take_left]

/-- Trimming a zero-filled buffer to what was written into it loses nothing. -/
theorem ofBytes_take_ofBytes (bytes : List UInt8) :
    ofBytes ((ofBytes bytes).bytes.take bytes.length) = ofBytes bytes := by
  by_cases h : bytes.length ≤ kMaxMessageSize
  · rw [take_bytes_ofBytes h]
  · have hsize : (ofBytes bytes).bytes.length ≤ bytes.length := by
      rw [(ofBytes bytes).size_eq]
      exact (not_le.mp h).le
    rw [List.take_of_length_le hsize, ofBytes_bytes]

end MessageBuffer

/-- What one receive on a socket with a `kMaxMessageSize` buffer can deliver. -/
structure Datagram where
  bytes : List UInt8
  size_le : bytes.length ≤ kMaxMessageSize
deriving DecidableEq

/-! ## Byte streams -/

/-- Big-endian `uint16_t`; a larger length wraps as the source's conversion does. -/
def uint16Bytes (n : ℕ) : List UInt8 :=
  [UInt8.ofNat (n / 256), UInt8.ofNat n]

@[simp] theorem length_uint16Bytes (n : ℕ) : (uint16Bytes n).length = 2 := rfl

def readUInt8 : List UInt8 → Option (UInt8 × List UInt8)
  | b :: rest => some (b, rest)
  | [] => none

def readUInt16 : List UInt8 → Option (ℕ × List UInt8)
  | hi :: lo :: rest => some (hi.toNat * 256 + lo.toNat, rest)
  | _ => none

def readNodeId (bytes : List UInt8) : Option (NodeId × List UInt8) :=
  if h : 8 ≤ bytes.length then
    some (⟨bytes.take 8, by simp [h]⟩, bytes.drop 8)
  else none

@[simp] theorem readUInt8_cons (b : UInt8) (rest : List UInt8) :
    readUInt8 (b :: rest) = some (b, rest) := rfl

@[simp] theorem readUInt16_uint16Bytes (n : ℕ) (rest : List UInt8) :
    readUInt16 (uint16Bytes n ++ rest) = some (n % 65536, rest) := by
  simp only [uint16Bytes, List.cons_append, List.nil_append, readUInt16,
    UInt8.toNat_ofNat', Option.some.injEq, Prod.mk.injEq, and_true]
  omega

@[simp] theorem readNodeId_bytes (id : NodeId) (rest : List UInt8) :
    readNodeId (id.bytes ++ rest) = some (id, rest) := by
  have hlen : 8 ≤ (id.bytes ++ rest).length := by simp [id.size_eq]
  have htake : (id.bytes ++ rest).take 8 = id.bytes := by
    rw [← id.size_eq, List.take_left]
  have hdrop : (id.bytes ++ rest).drop 8 = rest := by
    rw [← id.size_eq, List.drop_left]
  rw [readNodeId, dif_pos hlen]
  simp only [htake, hdrop]

theorem readNodeId_of_length {bytes : List UInt8} (h : 8 ≤ bytes.length) :
    ∃ id, readNodeId bytes = some (id, bytes.drop 8) :=
  ⟨_, dif_pos h⟩

theorem readUInt16_of_length {bytes : List UInt8} (h : 2 ≤ bytes.length) :
    ∃ n < 65536, readUInt16 bytes = some (n, bytes.drop 2) := by
  match bytes, h with
  | hi :: lo :: rest, _ =>
      refine ⟨hi.toNat * 256 + lo.toNat, ?_, rfl⟩
      have hhi := hi.toNat_lt
      have hlo := lo.toNat_lt
      omega

end LinkExtender
