import LinkExtender.Link.Payload
import LinkExtender.TunnelGateway

/-!
# The endpoint that is stripped off

`receivePeerState` computes the size of the endpoint entry from the endpoint that was
parsed, and cuts that many bytes off the end of the message.
-/

namespace LinkExtender

/-- The message without its endpoint entries. -/
def restOf (message : List UInt8) (entries : List PayloadEntry) : List UInt8 :=
  message.take (message.length - (payloadBytes entries).length) ++
    payloadBytes (entries.filter (fun e ↦ !e.isEndpoint))

/-- The last entry, and no other, is that of the endpoint. -/
def EndsWithEndpoint (entries : List PayloadEntry) : Prop :=
  ∃ before e, entries = before ++ [e] ∧ e.isEndpoint = true ∧
    ∀ e' ∈ before, e'.isEndpoint = false

theorem restOf_append (front : List UInt8) (entries : List PayloadEntry) :
    restOf (front ++ payloadBytes entries) entries =
      front ++ payloadBytes (entries.filter (fun e ↦ !e.isEndpoint)) := by
  simp [restOf]

theorem exists_last_endpoint {entries : List PayloadEntry}
    (h : ∃ e ∈ entries, e.isEndpoint = true) :
    ∃ before e after, entries = before ++ e :: after ∧ e.isEndpoint = true ∧
      ∀ e' ∈ after, e'.isEndpoint = false := by
  induction entries with
  | nil => simp at h
  | cons e entries ih =>
      by_cases hrest : ∃ e' ∈ entries, e'.isEndpoint = true
      · obtain ⟨before, e', after, rfl, he', hafter⟩ := ih hrest
        exact ⟨e :: before, e', after, rfl, he', hafter⟩
      · have he : e.isEndpoint = true := by
          obtain ⟨e', hmem, he'⟩ := h
          rcases List.mem_cons.mp hmem with rfl | htail
          · exact he'
          · exact absurd ⟨e', htail, he'⟩ hrest
        refine ⟨[], e, entries, rfl, he, fun e' hmem ↦ ?_⟩
        exact Bool.eq_false_iff.mpr fun he' ↦ hrest ⟨e', hmem, he'⟩

theorem filter_eq_self_of_forall {entries : List PayloadEntry}
    (h : ∀ e ∈ entries, e.isEndpoint = false) :
    entries.filter (fun e ↦ !e.isEndpoint) = entries := by
  apply List.filter_eq_self.mpr
  intro e he
  rw [h e he]
  rfl

/-- An entry that is left out is missed. -/
theorem forall_not_isEndpoint_of_length {entries : List PayloadEntry}
    (h : (payloadBytes entries).length ≤
      (payloadBytes (entries.filter (fun e ↦ !e.isEndpoint))).length) :
    ∀ e ∈ entries, e.isEndpoint = false := by
  have hle : ∀ entries : List PayloadEntry,
      (payloadBytes (entries.filter (fun e ↦ !e.isEndpoint))).length ≤
        (payloadBytes entries).length := by
    intro entries
    exact (List.filter_sublist.flatMap PayloadEntry.bytes).length_le
  induction entries with
  | nil => exact nofun
  | cons e entries ih =>
      rw [payloadBytes_cons, List.length_append, e.length_bytes] at h
      cases he : e.isEndpoint with
      | true =>
          have hrest := hle entries
          rw [List.filter_cons_of_neg (by simp [he])] at h
          omega
      | false =>
          rw [List.filter_cons_of_pos (by simp [he]), payloadBytes_cons, List.length_append,
            e.length_bytes] at h
          exact List.forall_mem_cons.mpr ⟨he, ih (by omega)⟩

/-- Cutting off the size of an endpoint entry removes that entry alone exactly when the
entry stands at the end and is the only one. -/
theorem take_eq_restOf_iff {front : List UInt8} {before after : List PayloadEntry}
    {e : PayloadEntry} (he : e.isEndpoint = true) (hafter : ∀ e' ∈ after, e'.isEndpoint = false) :
    (front ++ payloadBytes (before ++ e :: after)).take
        ((front ++ payloadBytes (before ++ e :: after)).length - e.bytes.length) =
      front ++ payloadBytes ((before ++ e :: after).filter (fun e ↦ !e.isEndpoint)) ↔
    after = [] ∧ ∀ e' ∈ before, e'.isEndpoint = false := by
  have hsize : (front ++ payloadBytes (before ++ e :: after)).length - e.bytes.length =
      front.length + ((payloadBytes before).length + (payloadBytes after).length) := by
    simp only [payloadBytes_append, payloadBytes_cons, List.length_append]
    omega
  have hfilter : (before ++ e :: after).filter (fun e ↦ !e.isEndpoint) =
      before.filter (fun e ↦ !e.isEndpoint) ++ after := by
    rw [List.filter_append, List.filter_cons_of_neg (by simp [he]),
      filter_eq_self_of_forall hafter]
  rw [hsize, hfilter, List.take_length_add_append, List.append_cancel_left_eq]
  simp only [payloadBytes_append, payloadBytes_cons]
  constructor
  · intro h
    have hlen := congrArg List.length h
    simp only [List.length_take, List.length_append] at hlen
    have hbefore : ∀ e' ∈ before, e'.isEndpoint = false :=
      forall_not_isEndpoint_of_length (by omega)
    refine ⟨?_, hbefore⟩
    rw [filter_eq_self_of_forall hbefore, List.take_length_add_append,
      List.append_cancel_left_eq] at h
    cases after with
    | nil => rfl
    | cons e' after =>
        -- the two entries would begin with the same key
        exfalso
        have hkey := congrArg (List.take 4) h
        rw [List.take_take, min_eq_left, payloadBytes_cons, PayloadEntry.take_bytes,
          PayloadEntry.take_bytes] at hkey
        · have hother := hafter e' List.mem_cons_self
          simp only [PayloadEntry.isEndpoint, ← hkey] at hother
          simp only [PayloadEntry.isEndpoint, hother, Bool.false_eq_true] at he
        · rw [payloadBytes_cons, List.length_append, e'.length_bytes]
          omega
  · rintro ⟨rfl, hbefore⟩
    rw [filter_eq_self_of_forall hbefore, List.take_length_add_append]
    simp

namespace TunnelGateway

open LinkLibrary

variable {link : LinkLibrary}

theorem withoutEndpoint_eq_restOf_iff (hlink : link.ParsesEntries) {message : List UInt8}
    {header : MessageHeader} {entries : List PayloadEntry} {state : PeerState}
    (hheader : link.parseMessageHeader message = (header, payloadBytes entries))
    (htype : header.messageType ≠ .other)
    (hstate : link.fromPayload header.ident (payloadBytes entries) = some state) :
    withoutEndpoint link message state.endpoint = restOf message entries ↔
      EndsWithEndpoint entries := by
  obtain ⟨front, hfront, rfl⟩ := hlink.header hheader htype
  have hsize : link.measEndpointEntrySize state.endpoint =
      (link.endpointPayload state.endpoint).length :=
    (link.length_endpointPayload state.endpoint).symm
  rw [withoutEndpoint, restOf_append, hsize]
  by_cases hsome : ∃ e ∈ entries, e.isEndpoint = true
  · obtain ⟨before, e, after, rfl, he, hafter⟩ := exists_last_endpoint hsome
    rw [hlink.last hstate he hafter, take_eq_restOf_iff he hafter]
    constructor
    · rintro ⟨rfl, hbefore⟩
      exact ⟨before, e, rfl, he, hbefore⟩
    · rintro ⟨before', e', heq, he', hbefore'⟩
      cases after using List.reverseRecOn with
      | nil =>
          obtain ⟨rfl, -⟩ := List.append_inj' heq rfl
          exact ⟨rfl, hbefore'⟩
      | append_singleton after last =>
          rw [← List.cons_append, ← List.append_assoc] at heq
          obtain ⟨-, hlast⟩ := List.append_inj' heq rfl
          obtain rfl := List.singleton_inj.mp hlast
          simp [hafter last (by simp)] at he'
  · -- nothing should be cut off, and something is
    have hnone : ∀ e ∈ entries, e.isEndpoint = false := fun e he ↦
      Bool.eq_false_iff.mpr fun hendpoint ↦ hsome ⟨e, he, hendpoint⟩
    obtain ⟨e, -, hentry⟩ := hlink.entry state.endpoint
    rw [filter_eq_self_of_forall hnone, ← hentry, e.length_bytes]
    refine iff_of_false (fun h ↦ ?_) ?_
    · have hlen := congrArg List.length h
      simp only [List.length_take, List.length_append] at hlen
      omega
    · rintro ⟨before, e', rfl, he', -⟩
      simp [hnone e' (by simp)] at he'

/-- Whatever entries the payload of a message that is accepted consists of: the message
without its endpoint entries is handed to the tunnel exactly when the only one of them
ends the message. -/
theorem forward_restOf_iff (hlink : link.ParsesEntries) (g : TunnelGateway) (now : TimePoint)
    (sender : UdpEndpoint) (toNode : Option NodeId)
    -- the message is read as a header and a payload
    {message : Datagram} {header : MessageHeader} {payload : List UInt8}
    (hheader : link.parseMessageHeader message.bytes = (header, payload))
    (htype : header.messageType = .kAlive ∨ header.messageType = .kResponse)
    -- and the payload as a state
    {state : PeerState} (hstate : link.fromPayload header.ident payload = some state) :
    (∃ entries, payload = payloadBytes entries) ∧
      ∀ entries, payload = payloadBytes entries →
        (.forward ⟨if toNode.isSome then .unicast else .broadcast, header.ident,
            restOf message.bytes entries, toNode⟩ ∈
          (g.receivePeerState link now sender header message.bytes payload toNode).2 ↔
        EndsWithEndpoint entries) := by
  refine ⟨hlink.entries hstate, ?_⟩
  rintro entries rfl
  have htype : header.messageType ≠ .other := by
    rcases htype with h | h <;> simp [h]
  rw [← withoutEndpoint_eq_restOf_iff hlink hheader htype hstate]
  simp only [receivePeerState, hstate, List.mem_cons, List.not_mem_nil, or_false, reduceCtorEq,
    false_or, GatewayOutput.forward.injEq, ForwardCall.mk.injEq, true_and, and_true]
  exact eq_comm

/-! ## Three payloads -/

def timelineEntry : PayloadEntry :=
  ⟨[0x74, 0x6d, 0x6c, 0x6e], List.replicate 24 1, rfl, by decide⟩

def endpointV4Entry : PayloadEntry := ⟨keyV4, [127, 0, 0, 1, 0x51, 0x49], rfl, by decide⟩

def endpointV6Entry : PayloadEntry :=
  ⟨keyV6, List.replicate 16 0xfe ++ [0x51, 0x49], rfl, by decide⟩

def aliveDatagram (entries : List PayloadEntry) : Datagram :=
  ⟨(discoveryMessage 1 5 default (payloadBytes entries)).take kMaxMessageSize,
    List.length_take_le ..⟩

/-- What `receivePeerState` makes of a kAlive message with these entries. -/
def afterAlive (entries : List PayloadEntry) : List GatewayOutput :=
  ((create kLocalIfAddr).receivePeerState .version1 0 kSameSubnetPeer ⟨.kAlive, 5, default⟩
    (aliveDatagram entries).bytes (payloadBytes entries) none).2

theorem forward_restOf_afterAlive :
    .forward ⟨.broadcast, default,
        restOf (aliveDatagram [timelineEntry, endpointV4Entry]).bytes
          [timelineEntry, endpointV4Entry], none⟩ ∈
      afterAlive [timelineEntry, endpointV4Entry] :=
  ((@forward_restOf_iff .version1 parsesEntries_version1 (create kLocalIfAddr) 0 kSameSubnetPeer
    none (aliveDatagram [timelineEntry, endpointV4Entry]) ⟨.kAlive, 5, default⟩ _
    (by decide +kernel) (Or.inl rfl) ⟨default, localhost 20809⟩ (by decide +kernel)).2 _ rfl).mpr
    ⟨[timelineEntry], endpointV4Entry, rfl, rfl, by decide +kernel⟩

/-- The message can be read, but something else than its other entries is forwarded. -/
def ForwardsOther (entries : List PayloadEntry) : Prop :=
  (LinkLibrary.version1.parseMessageHeader (aliveDatagram entries).bytes =
      (⟨.kAlive, 5, default⟩, payloadBytes entries) ∧
    (LinkLibrary.version1.fromPayload default (payloadBytes entries)).isSome = true) ∧
  .forward ⟨.broadcast, default, restOf (aliveDatagram entries).bytes entries, none⟩ ∉
    afterAlive entries

instance (entries : List PayloadEntry) : Decidable (ForwardsOther entries) :=
  inferInstanceAs (Decidable (_ ∧ _))

/-- Without an endpoint 14 bytes of the state are cut off.  An entry behind the endpoint
loses its end, and of two endpoints the first goes on. -/
theorem not_forward_restOf :
    ForwardsOther [timelineEntry] ∧ ForwardsOther [endpointV4Entry, timelineEntry] ∧
      ForwardsOther [endpointV6Entry, endpointV4Entry] := by
  decide +kernel

end TunnelGateway

end LinkExtender
