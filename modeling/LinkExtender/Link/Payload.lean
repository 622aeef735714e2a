import LinkExtender.Link
import Mathlib.Data.List.Flatten

/-!
# The entries of a payload

The payload of a discovery message is a sequence of entries: a key of four bytes, a
size of four bytes and a value.  `ParsesEntries` collects what the gateway relies on
when Ableton Link reads one.
-/

namespace LinkExtender

/-- Big-endian `uint32_t`. -/
def uint32Bytes (n : ℕ) : List UInt8 :=
  [UInt8.ofNat (n / 16777216), UInt8.ofNat (n / 65536), UInt8.ofNat (n / 256), UInt8.ofNat n]

structure PayloadEntry where
  key : List UInt8
  value : List UInt8
  length_key : key.length = 4
  length_value : value.length < 4294967296
deriving DecidableEq

namespace PayloadEntry

def bytes (e : PayloadEntry) : List UInt8 :=
  e.key ++ (uint32Bytes e.value.length ++ e.value)

/-- The keys of `MeasurementEndpointV4` and `MeasurementEndpointV6`. -/
def isEndpoint (e : PayloadEntry) : Bool :=
  e.key == LinkLibrary.keyV4 || e.key == LinkLibrary.keyV6

theorem length_bytes (e : PayloadEntry) : e.bytes.length = 8 + e.value.length := by
  simp only [bytes, List.length_append, e.length_key, uint32Bytes, List.length_cons,
    List.length_nil]
  omega

theorem bytes_of_length {e : PayloadEntry} {n : ℕ} (h : e.value.length = n) :
    e.bytes = e.key ++ (uint32Bytes n ++ e.value) := by
  rw [bytes, h]

theorem take_bytes (e : PayloadEntry) (rest : List UInt8) : (e.bytes ++ rest).take 4 = e.key := by
  rw [bytes, List.append_assoc, ← e.length_key, List.take_left]

end PayloadEntry

def payloadBytes (entries : List PayloadEntry) : List UInt8 :=
  entries.flatMap PayloadEntry.bytes

@[simp] theorem payloadBytes_nil : payloadBytes [] = [] := rfl

@[simp] theorem payloadBytes_cons (e : PayloadEntry) (entries : List PayloadEntry) :
    payloadBytes (e :: entries) = e.bytes ++ payloadBytes entries := rfl

@[simp] theorem payloadBytes_append (xs ys : List PayloadEntry) :
    payloadBytes (xs ++ ys) = payloadBytes xs ++ payloadBytes ys :=
  List.flatMap_append

theorem uint32Bytes_inj {m n : ℕ} (hm : m < 4294967296) (hn : n < 4294967296)
    (h : uint32Bytes m = uint32Bytes n) : m = n := by
  simp only [uint32Bytes, List.cons.injEq, and_true, ← UInt8.toNat_inj, UInt8.toNat_ofNat'] at h
  omega

/-- An entry says itself where it ends. -/
theorem PayloadEntry.bytes_append_inj {e e' : PayloadEntry} {rest rest' : List UInt8}
    (h : e.bytes ++ rest = e'.bytes ++ rest') : e = e' ∧ rest = rest' := by
  obtain ⟨key, value, hkey, hvalue⟩ := e
  obtain ⟨key', value', hkey', hvalue'⟩ := e'
  simp only [bytes, List.append_assoc] at h
  obtain ⟨hsamekey, hback⟩ := List.append_inj h (hkey.trans hkey'.symm)
  obtain ⟨hsize, hend⟩ := List.append_inj hback rfl
  obtain ⟨hsamevalue, hrest⟩ := List.append_inj hend (uint32Bytes_inj hvalue hvalue' hsize)
  subst hsamekey hsamevalue
  exact ⟨rfl, hrest⟩

theorem payloadBytes_injective : Function.Injective payloadBytes := by
  intro entries entries' h
  induction entries generalizing entries' with
  | nil =>
      cases entries' with
      | nil => rfl
      | cons e entries' =>
          have hlen := congrArg List.length h
          rw [payloadBytes_cons, List.length_append, e.length_bytes, payloadBytes_nil,
            List.length_nil] at hlen
          omega
  | cons e entries ih =>
      cases entries' with
      | nil =>
          have hlen := congrArg List.length h
          rw [payloadBytes_cons, List.length_append, e.length_bytes, payloadBytes_nil,
            List.length_nil] at hlen
          omega
      | cons e' entries' =>
          obtain ⟨rfl, hrest⟩ := PayloadEntry.bytes_append_inj h
          rw [ih hrest]

/-- What the gateway relies on when messages are read. -/
structure LinkLibrary.ParsesEntries (link : LinkLibrary) : Prop where
  /-- The payload is what follows the header of 20 bytes. -/
  header : ∀ {message : List UInt8} {header : MessageHeader} {payload : List UInt8},
    link.parseMessageHeader message = (header, payload) → header.messageType ≠ .other →
      ∃ front, front.length = 20 ∧ message = front ++ payload
  /-- A payload that is accepted consists of entries. -/
  entries : ∀ {ident : NodeId} {payload : List UInt8} {state : PeerState},
    link.fromPayload ident payload = some state → ∃ entries, payload = payloadBytes entries
  /-- Of several endpoint entries the last is kept, whatever stands around it. -/
  last : ∀ {ident : NodeId} {before after : List PayloadEntry} {e : PayloadEntry}
    {state : PeerState},
    link.fromPayload ident (payloadBytes (before ++ e :: after)) = some state →
      e.isEndpoint = true → (∀ e' ∈ after, e'.isEndpoint = false) →
        link.endpointPayload state.endpoint = e.bytes
  /-- What `makePayload` writes for an endpoint is one entry. -/
  entry : ∀ endpoint : UdpEndpoint, ∃ e : PayloadEntry,
    e.isEndpoint = true ∧ e.bytes = link.endpointPayload endpoint

namespace LinkLibrary

/-! ## Version 1 of the protocol -/

theorem readHeader_spec {message : List UInt8} {header : MessageHeader} {payload : List UInt8}
    (h : readHeader message = (header, payload)) (htype : header.messageType ≠ .other) :
    ∃ front, front.length = 20 ∧ message = front ++ payload := by
  have hdefault : (default, message) ≠ (header, payload) := by
    intro heq
    obtain ⟨rfl, -⟩ := Prod.mk.inj heq
    exact htype rfl
  unfold readHeader at h
  split at h
  · split at h
    · rename_i type ttl _ _ rest hdrop
      split at h
      · rename_i ident payload' hnode
        obtain ⟨-, rfl⟩ := Prod.mk.inj h
        unfold readNodeId at hnode
        split at hnode
        · rename_i hlen
          obtain ⟨-, rfl⟩ := Prod.mk.inj (Option.some.inj hnode)
          have hrest : message.drop 12 = rest := by
            have hdrop4 := congrArg (List.drop 4) hdrop
            rwa [List.drop_drop] at hdrop4
          have hsize := congrArg List.length hrest
          rw [List.length_drop] at hsize
          refine ⟨message.take 20, ?_, ?_⟩
          · rw [List.length_take]
            omega
          · rw [← hrest, List.drop_drop]
            exact (List.take_append_drop 20 message).symm
        · cases hnode
      · exact absurd h hdefault
    · exact absurd h hdefault
  · exact absurd h hdefault

theorem readEntries_cons (n : ℕ) (e : PayloadEntry) (rest : List UInt8)
    (endpoint : UdpEndpoint) :
    readEntries (n + 1) (e.bytes ++ rest) endpoint =
      (readEntry e.key e.value endpoint).bind (readEntries n rest) := by
  obtain ⟨key, value, hkey, hvalue⟩ := e
  match key, hkey with
  | [k₁, k₂, k₃, k₄], _ =>
      have hsize : ((value.length / 16777216 % 256 * 256 + value.length / 65536 % 256) * 256 +
          value.length / 256 % 256) * 256 + value.length % 256 = value.length := by
        omega
      simp only [PayloadEntry.bytes, uint32Bytes, List.cons_append, List.nil_append, readEntries,
        UInt8.toNat_ofNat', Nat.reducePow, hsize, List.length_append, Nat.le_add_right, if_true,
        List.take_left, List.drop_left]
      cases readEntry [k₁, k₂, k₃, k₄] value endpoint <;> rfl

/-- `parsePayload` hands the entries to their handlers one after the other. -/
theorem readEntries_payloadBytes {n : ℕ} {entries : List PayloadEntry} (hn : entries.length ≤ n)
    (endpoint : UdpEndpoint) :
    readEntries n (payloadBytes entries) endpoint =
      entries.foldlM (fun endpoint e ↦ readEntry e.key e.value endpoint) endpoint := by
  induction entries generalizing n endpoint with
  | nil => cases n <;> rfl
  | cons e entries ih =>
      cases n with
      | zero => simp at hn
      | succ n =>
          rw [payloadBytes_cons, readEntries_cons, List.foldlM_cons]
          refine congrArg _ (funext fun endpoint' ↦ ih ?_ endpoint')
          simpa using hn

theorem uint32Bytes_eq (s₁ s₂ s₃ s₄ : UInt8) :
    uint32Bytes (((s₁.toNat * 256 + s₂.toNat) * 256 + s₃.toNat) * 256 + s₄.toNat) =
      [s₁, s₂, s₃, s₄] := by
  have h₁ := s₁.toNat_lt
  have h₂ := s₂.toNat_lt
  have h₃ := s₃.toNat_lt
  have h₄ := s₄.toNat_lt
  simp only [uint32Bytes, List.cons.injEq, and_true, ← UInt8.toNat_inj, UInt8.toNat_ofNat']
  omega

theorem exists_entries_of_readEntries {n : ℕ} {payload : List UInt8}
    {endpoint endpoint' : UdpEndpoint} (h : readEntries n payload endpoint = some endpoint') :
    ∃ entries, payload = payloadBytes entries := by
  induction n generalizing payload endpoint with
  | zero =>
      cases payload with
      | nil => exact ⟨[], rfl⟩
      | cons b payload => simp [readEntries] at h
  | succ n ih =>
      match payload, h with
      | [], _ => exact ⟨[], rfl⟩
      | k₁ :: k₂ :: k₃ :: k₄ :: s₁ :: s₂ :: s₃ :: s₄ :: rest, h =>
          have hsize := uint32Bytes_eq s₁ s₂ s₃ s₄
          have h₁ := s₁.toNat_lt
          have h₂ := s₂.toNat_lt
          have h₃ := s₃.toNat_lt
          have h₄ := s₄.toNat_lt
          simp only [readEntries] at h
          generalize hvalue : ((s₁.toNat * 256 + s₂.toNat) * 256 + s₃.toNat) * 256 + s₄.toNat =
            size at h hsize
          split at h
          · rename_i hle
            split at h
            · obtain ⟨entries, hentries⟩ := ih h
              have hlen : (rest.take size).length = size := by
                rw [List.length_take, min_eq_left hle]
              refine ⟨⟨[k₁, k₂, k₃, k₄], rest.take size, rfl, by omega⟩ :: entries, ?_⟩
              rw [payloadBytes_cons, PayloadEntry.bytes_of_length hlen, hsize, ← hentries]
              simp
            · cases h
          · cases h

theorem length_le_length_payloadBytes (entries : List PayloadEntry) :
    entries.length ≤ (payloadBytes entries).length := by
  induction entries with
  | nil => exact Nat.zero_le _
  | cons e entries ih =>
      rw [payloadBytes_cons, List.length_cons, List.length_append, e.length_bytes]
      omega

theorem readEntry_of_not_isEndpoint {e : PayloadEntry} (h : e.isEndpoint = false)
    (endpoint : UdpEndpoint) : readEntry e.key e.value endpoint = some endpoint := by
  simp only [PayloadEntry.isEndpoint, Bool.or_eq_false_iff, beq_eq_false_iff_ne] at h
  unfold readEntry
  rw [if_neg h.1, if_neg h.2]

theorem foldlM_readEntry_of_not_isEndpoint {entries : List PayloadEntry}
    (h : ∀ e ∈ entries, e.isEndpoint = false) (endpoint : UdpEndpoint) :
    entries.foldlM (fun endpoint e ↦ readEntry e.key e.value endpoint) endpoint =
      some endpoint := by
  induction entries with
  | nil => rfl
  | cons e entries ih =>
      rw [List.foldlM_cons, readEntry_of_not_isEndpoint (h e List.mem_cons_self)]
      exact ih fun e' he' ↦ h e' (List.mem_cons_of_mem _ he')

/-! ### The bytes of an endpoint -/

theorem addressBytes_readBytes (a b c d : UInt8) :
    addressBytes (a.toUInt32 <<< 24 ||| b.toUInt32 <<< 16 ||| c.toUInt32 <<< 8 |||
      d.toUInt32) = [a, b, c, d] := by
  have hbyte {x : UInt8} {y : UInt32}
      (h : ∀ i < 8, y.toBitVec.getLsbD i = x.toBitVec.getLsbD i) : y.toUInt8 = x := by
    apply UInt8.toBitVec_inj.mp
    apply BitVec.eq_of_getLsbD_eq
    intro i hi
    rw [UInt32.toBitVec_toUInt8, BitVec.getLsbD_setWidth, decide_eq_true hi, Bool.true_and,
      h i hi]
  simp only [addressBytes, List.cons.injEq, and_true]
  refine ⟨hbyte ?_, hbyte ?_, hbyte ?_, hbyte ?_⟩ <;>
  · intro i hi
    simp only [UInt32.toBitVec_shiftRight, UInt32.toBitVec_or, UInt32.toBitVec_shiftLeft,
      UInt8.toBitVec_toUInt32, UInt32.toBitVec_ofNat, BitVec.reduceMod, BitVec.shiftLeft_eq',
      BitVec.ushiftRight_eq', BitVec.toNat_ofNat]
    grind

theorem uint16Bytes_toNat (port : UInt16) :
    uint16Bytes port.toNat = [(port >>> 8).toUInt8, port.toUInt8] := by
  have hhigh : port.toNat / 256 = (port >>> 8).toNat := by
    simp [UInt16.toNat_shiftRight, Nat.shiftRight_eq_div_pow]
  rw [uint16Bytes, hhigh]
  rfl

theorem uint16Bytes_readBytes (hi lo : UInt8) :
    uint16Bytes (hi.toUInt16 <<< 8 ||| lo.toUInt16).toNat = [hi, lo] := by
  have hbyte {x : UInt8} {y : UInt16}
      (h : ∀ i < 8, y.toBitVec.getLsbD i = x.toBitVec.getLsbD i) : y.toUInt8 = x := by
    apply UInt8.toBitVec_inj.mp
    apply BitVec.eq_of_getLsbD_eq
    intro i hi
    rw [UInt16.toBitVec_toUInt8, BitVec.getLsbD_setWidth, decide_eq_true hi, Bool.true_and,
      h i hi]
  rw [uint16Bytes_toNat, List.cons.injEq, List.cons.injEq]
  refine ⟨hbyte ?_, hbyte ?_, rfl⟩ <;>
  · intro i hi
    simp only [UInt16.toBitVec_shiftRight, UInt16.toBitVec_or, UInt16.toBitVec_shiftLeft,
      UInt8.toBitVec_toUInt16, UInt16.toBitVec_ofNat, BitVec.reduceMod, BitVec.shiftLeft_eq',
      BitVec.ushiftRight_eq', BitVec.toNat_ofNat]
    grind

theorem uint16Bytes_readUInt16 {bytes rest : List UInt8} {n : ℕ}
    (h : readUInt16 bytes = some (n, rest)) :
    bytes = uint16Bytes (UInt16.ofNat n).toNat ++ rest := by
  match bytes, h with
  | hi :: lo :: rest', h =>
      obtain ⟨rfl, rfl⟩ := Prod.mk.inj (Option.some.inj h)
      have hhi := hi.toNat_lt
      have hlo := lo.toNat_lt
      simp only [uint16Bytes, UInt16.toNat_ofNat', List.cons_append, List.nil_append,
        List.cons.injEq, and_true]
      refine ⟨?_, ?_⟩
      · apply UInt8.toNat_inj.mp
        rw [UInt8.toNat_ofNat']
        omega
      · apply UInt8.toNat_inj.mp
        rw [UInt8.toNat_ofNat']
        omega

theorem toList_ofFn_getD {value : List UInt8} (h : 16 ≤ value.length) :
    (Vector.ofFn fun i : Fin 16 ↦ value.getD i 0).toList = value.take 16 := by
  apply List.ext_getElem
  · simp [h]
  · intro i hi hi'
    have hlt : i < value.length := (List.length_take_le' ..).trans_lt' hi'
    simp [List.getD_eq_getElem?_getD, List.getElem?_eq_getElem hlt]

/-- What is read from an endpoint entry is written back as that entry. -/
theorem endpointEntry_of_readEntry {e : PayloadEntry} (h : e.isEndpoint = true)
    {endpoint endpoint' : UdpEndpoint}
    (hread : readEntry e.key e.value endpoint = some endpoint') :
    endpointEntry endpoint' = e.bytes := by
  unfold readEntry at hread
  split at hread
  · rename_i hkey
    split at hread
    · rename_i a b c d hi lo hvalue
      obtain rfl := Option.some.inj hread
      have hlen : e.value.length = 6 := by rw [hvalue]; rfl
      rw [PayloadEntry.bytes_of_length hlen, hkey, hvalue]
      simp only [endpointEntry, addressBytes_readBytes, uint16Bytes_readBytes]
      rfl
    · cases hread
  · rename_i hkey
    split at hread
    · rename_i hkey'
      split at hread
      · rename_i port hport
        obtain rfl := Option.some.inj hread
        have hlast := uint16Bytes_readUInt16 hport
        have hlen := congrArg List.length hlast
        rw [List.length_drop, List.append_nil, length_uint16Bytes] at hlen
        have hsplit := List.take_append_drop 16 e.value
        rw [hlast, List.append_nil] at hsplit
        have hsize : e.value.length = 18 := by omega
        simp only [endpointEntry]
        rw [toList_ofFn_getD (by omega), PayloadEntry.bytes_of_length hsize, hkey', hsplit]
        rfl
      · cases hread
    · rename_i hkey'
      simp [PayloadEntry.isEndpoint, hkey, hkey'] at h

theorem exists_entry (endpoint : UdpEndpoint) :
    ∃ e : PayloadEntry, e.isEndpoint = true ∧ e.bytes = endpointEntry endpoint := by
  obtain ⟨address, port⟩ := endpoint
  cases address with
  | v4 address =>
      have hlen : (addressBytes address ++ uint16Bytes port.toNat).length = 6 := rfl
      refine ⟨⟨keyV4, addressBytes address ++ uint16Bytes port.toNat, rfl, by omega⟩, rfl, ?_⟩
      rw [PayloadEntry.bytes_of_length hlen]
      rfl
  | v6 bytes scopeId =>
      have hlen : (bytes.toList ++ uint16Bytes port.toNat).length = 18 := by simp
      refine ⟨⟨keyV6, bytes.toList ++ uint16Bytes port.toNat, rfl, by omega⟩, rfl, ?_⟩
      rw [PayloadEntry.bytes_of_length hlen]
      rfl

theorem parsesEntries_version1 : version1.ParsesEntries where
  header := readHeader_spec
  entries := by
    intro ident payload state h
    obtain ⟨endpoint, hread, -⟩ := Option.map_eq_some_iff.mp h
    exact exists_entries_of_readEntries hread
  last := by
    intro ident before after e state h hendpoint hafter
    obtain ⟨endpoint, hread, rfl⟩ := Option.map_eq_some_iff.mp h
    rw [readEntries_payloadBytes (length_le_length_payloadBytes _), List.foldlM_append,
      Option.bind_eq_bind, Option.bind_eq_some_iff] at hread
    obtain ⟨earlier, -, hread⟩ := hread
    rw [List.foldlM_cons, Option.bind_eq_bind, Option.bind_eq_some_iff] at hread
    obtain ⟨kept, hkept, hread⟩ := hread
    rw [foldlM_readEntry_of_not_isEndpoint hafter] at hread
    obtain rfl := Option.some.inj hread
    exact endpointEntry_of_readEntry hendpoint hkept
  entry := exists_entry

end LinkLibrary

end LinkExtender
