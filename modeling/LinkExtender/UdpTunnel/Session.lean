import LinkExtender.UdpTunnel.PeerTable

/-!
# One tunnel's session with one peer

A tunnel keeps one entry of a peer that it knows.  Maintenance passes, handshake
messages and `stop_listening` are described by the time since which the peer is
held and by the datagrams sent to it.
-/

namespace LinkExtender

namespace UdpTunnel

open EventMachine LastIndex

/-- The time at which a connected peer was last heard of. -/
def heldSince (t : UdpTunnel) (endpoint : UdpEndpoint) : Option TimePoint :=
  match t.peer? endpoint with
  | some (_, peer) => if peer.state = .connected then some peer.lastSeen else none
  | none => none

theorem isConnected_iff_heldSince {t : UdpTunnel} {endpoint : UdpEndpoint} :
    t.isConnected endpoint = true ↔ t.heldSince endpoint ≠ none := by
  unfold isConnected heldSince
  cases t.peer? endpoint with
  | none => simp
  | some found => by_cases h : found.2.state = .connected <;> simp [h]

theorem heldSince_of_peer? {t : UdpTunnel} {endpoint : UdpEndpoint} {idx : ℕ}
    {peer : PeerEntry} (h : t.peer? endpoint = some (idx, peer)) :
    t.heldSince endpoint =
      if peer.state = .connected then some peer.lastSeen else none := by
  simp [heldSince, h]

def sentTo (endpoint : UdpEndpoint) (out : List TunnelOutput) : List (List UInt8) :=
  out.filterMap fun o ↦
    match o with
    | .send dest bytes => if dest = endpoint then some bytes else none
    | _ => none

@[simp] theorem sentTo_nil (endpoint : UdpEndpoint) : sentTo endpoint [] = [] := rfl

@[simp] theorem sentTo_send_self (endpoint : UdpEndpoint) (bytes : List UInt8) :
    sentTo endpoint [.send endpoint bytes] = [bytes] := by
  simp [sentTo]

theorem mem_sentTo {endpoint : UdpEndpoint} {out : List TunnelOutput} {bytes : List UInt8} :
    bytes ∈ sentTo endpoint out ↔ .send endpoint bytes ∈ out := by
  simp only [sentTo, List.mem_filterMap]
  constructor
  · rintro ⟨o, ho, hview⟩
    cases o with
    | send dest bytes' =>
        by_cases hdest : dest = endpoint
        · subst hdest
          obtain rfl : bytes' = bytes := by simpa using hview
          exact ho
        · simp [hdest] at hview
    | _ => simp at hview
  · intro h
    exact ⟨_, h, by simp⟩

theorem sentTo_flatMap (endpoint : UdpEndpoint) (peers : List PeerEntry)
    (f : PeerEntry → List TunnelOutput) :
    sentTo endpoint (peers.flatMap f) = peers.flatMap (fun p ↦ sentTo endpoint (f p)) :=
  List.filterMap_flatMap ..

theorem sentTo_flatMap_of_nodup {peers : List PeerEntry}
    (hdistinct : (peers.map PeerEntry.endpoint).Nodup) {peer : PeerEntry}
    (hpeer : peer ∈ peers) {f : PeerEntry → List TunnelOutput}
    (hf : ∀ q : PeerEntry, q.endpoint ≠ peer.endpoint →
      sentTo peer.endpoint (f q) = []) :
    sentTo peer.endpoint (peers.flatMap f) = sentTo peer.endpoint (f peer) := by
  rw [sentTo_flatMap]
  induction peers with
  | nil => cases hpeer
  | cons q qs ih =>
      obtain ⟨hnot, hqs⟩ := List.nodup_cons.mp hdistinct
      rw [List.flatMap_cons]
      rcases List.mem_cons.mp hpeer with rfl | hmem
      · have hrest : qs.flatMap (fun p ↦ sentTo peer.endpoint (f p)) = [] := by
          rw [List.flatMap_eq_nil_iff]
          intro p hp
          refine hf p fun heq ↦ hnot ?_
          rw [← heq]
          exact List.mem_map_of_mem hp
        rw [hrest, List.append_nil]
      · have hne : q.endpoint ≠ peer.endpoint := by
          intro heq
          apply hnot
          exact heq ▸ List.mem_map_of_mem hmem
        rw [hf q hne, List.nil_append, ih hqs hmem]

theorem sentTo_other {endpoint dest : UdpEndpoint} (h : dest ≠ endpoint)
    (bytes : List UInt8) : sentTo endpoint [.send dest bytes] = [] := by
  simp [sentTo, h]

/-- A running tunnel with a sound peer table that knows the endpoint. -/
structure Ready (t : UdpTunnel) (endpoint : UdpEndpoint) : Prop where
  table : t.PeerTable
  running : t.isRunning = true
  known : endpoint ∈ t.endpoints

theorem Ready.exists_peer {t : UdpTunnel} {endpoint : UdpEndpoint}
    (h : t.Ready endpoint) : ∃ idx peer, t.peer? endpoint = some (idx, peer) ∧
      peer.endpoint = endpoint ∧ peer ∈ t.mPeers := by
  cases hpeer : t.peer? endpoint with
  | none => exact absurd h.known (h.table.indexed.peer?_eq_none.mp hpeer)
  | some found =>
      obtain ⟨idx, peer⟩ := found
      exact ⟨idx, peer, rfl, (h.table.indexed.mem_endpoints hpeer).2,
        List.mem_of_getElem? (peer?_eq_some.mp hpeer).2⟩

theorem isRunning_next (t : UdpTunnel) (e : TunnelEvent) :
    (next machine t e).isRunning = t.isRunning := by
  have heffect := effect t e
  generalize next machine t e = t', emit machine t e = out at heffect ⊢
  cases heffect with
  | maintain hrun => simp [runMaintenance, hrun]
  | _ => rfl

theorem ready_next {t : UdpTunnel} {endpoint : UdpEndpoint} (h : t.Ready endpoint)
    {e : TunnelEvent} (he : ∀ other, e ≠ .removePeer other) :
    (next machine t e).Ready endpoint := by
  refine ⟨peerTable_next h.table e, (isRunning_next t e).trans h.running, ?_⟩
  rcases endpoints_next t e with heq | ⟨_, -, -, heq⟩ | ⟨other, _, hremove, -⟩
  · rw [heq]
    exact h.known
  · rw [heq]
    exact List.mem_append_left _ h.known
  · exact absurd hremove (he other)

theorem ready_create {initialPeers : List UdpEndpoint} (h : initialPeers.Nodup)
    {endpoint : UdpEndpoint} (hmem : endpoint ∈ initialPeers) :
    (create initialPeers).Ready endpoint :=
  ⟨peerTable_create h, isRunning_create _, by rwa [endpoints_create]⟩

theorem heldSince_create (initialPeers : List UdpEndpoint) (endpoint : UdpEndpoint) :
    (create initialPeers).heldSince endpoint = none := by
  unfold heldSince
  cases hpeer : (create initialPeers).peer? endpoint with
  | none => rfl
  | some found =>
      have hmem := List.mem_of_getElem? (peer?_eq_some.mp hpeer).2
      simp [state_create hmem]

theorem peer?_setPeer_self {t : UdpTunnel} {endpoint : UdpEndpoint} {idx : ℕ}
    {old : PeerEntry} (h : t.peer? endpoint = some (idx, old)) (new : PeerEntry) :
    (t.setPeer idx new).peer? endpoint = some (idx, new) := by
  obtain ⟨hfind, hget⟩ := peer?_eq_some.mp h
  refine peer?_eq_some.mpr ⟨hfind, ?_⟩
  rw [setPeer, List.getElem?_set_self (List.getElem?_eq_some_iff.mp hget).1]

theorem runMaintenance_spec {t : UdpTunnel} {endpoint : UdpEndpoint}
    (h : t.Ready endpoint) (now : TimePoint) :
    (t.heldSince endpoint = none ∧
      (t.runMaintenance now).1.heldSince endpoint = none ∧
      sentTo endpoint (t.runMaintenance now).2 = [controlBytes .tunnelHello]) ∨
    ∃ l, t.heldSince endpoint = some l ∧
      ((kKeepaliveTimeout < now - l ∧
        (t.runMaintenance now).1.heldSince endpoint = none ∧
        sentTo endpoint (t.runMaintenance now).2 = []) ∨
      (¬ kKeepaliveTimeout < now - l ∧
        (t.runMaintenance now).1.heldSince endpoint = some l ∧
        sentTo endpoint (t.runMaintenance now).2 = [controlBytes .tunnelKeepalive])) := by
  obtain ⟨idx, peer, hpeer, rfl, hmem⟩ := h.exists_peer
  obtain ⟨hfind, hget⟩ := peer?_eq_some.mp hpeer
  have hpeer' : (t.runMaintenance now).1.peer? peer.endpoint =
      some (idx, maintained now peer) := by
    refine peer?_eq_some.mpr ⟨by rwa [mEndpointToPeerIdx_runMaintenance], ?_⟩
    rw [mPeers_runMaintenance h.running, List.getElem?_map, hget]
    rfl
  have hsent : sentTo peer.endpoint (t.runMaintenance now).2 =
      sentTo peer.endpoint (maintenanceOutput now peer) := by
    rw [emit_runMaintenance h.running]
    apply sentTo_flatMap_of_nodup h.table.distinct hmem
    intro q hq
    unfold maintenanceOutput
    split
    · split
      · rfl
      · rw [sendKeepalive_eq, sentTo_other hq]
    · rw [sendHello_eq, sentTo_other hq]
  rw [heldSince_of_peer? hpeer, heldSince_of_peer? hpeer', hsent]
  by_cases hc : peer.state = .connected
  · refine Or.inr ⟨peer.lastSeen, by simp [hc], ?_⟩
    by_cases hlate : kKeepaliveTimeout < now - peer.lastSeen
    · exact Or.inl ⟨hlate, by simp [maintained, maintenanceOutput, hc, hlate]⟩
    · exact Or.inr ⟨hlate, by simp [maintained, maintenanceOutput, hc, hlate]⟩
  · exact Or.inl (by simp [maintained, maintenanceOutput, hc])

theorem receive_control_spec {t : UdpTunnel} {endpoint : UdpEndpoint}
    (h : t.Ready endpoint) (now : TimePoint) :
    ((t.receive now endpoint (controlDatagram .tunnelHello)).1.heldSince endpoint =
        some now ∧
      sentTo endpoint (t.receive now endpoint (controlDatagram .tunnelHello)).2 =
        if t.heldSince endpoint = none then [controlBytes .tunnelHello] else []) ∧
    ((t.receive now endpoint (controlDatagram .tunnelKeepalive)).1.heldSince endpoint =
        (t.heldSince endpoint).map (fun _ ↦ now) ∧
      (t.receive now endpoint (controlDatagram .tunnelKeepalive)).2 = []) ∧
    (t.receive now endpoint (controlDatagram .tunnelBye)).1.heldSince endpoint = none ∧
      (t.receive now endpoint (controlDatagram .tunnelBye)).2 = [] := by
  obtain ⟨idx, peer, hpeer, -, -⟩ := h.exists_peer
  have hdispatch : ∀ {type : TunnelMessageType}, type.isControl = true →
      ∃ message : LocalMessage, message.type = type ∧
        t.receive now endpoint (controlDatagram type) = t.dispatch now endpoint message := by
    intro type htype
    obtain ⟨message, hmessage, heq⟩ :=
      receive_eq_dispatch t now endpoint (controlDatagram type)
    obtain ⟨message', hmessage', htype'⟩ := exists_messageOf_controlDatagram htype
    obtain rfl := Option.some.inj (hmessage.symm.trans hmessage')
    exact ⟨message, htype', heq⟩
  refine ⟨?_, ?_, ?_⟩
  · obtain ⟨message, htype, heq⟩ := @hdispatch .tunnelHello rfl
    have hset := heldSince_of_peer? (peer?_setPeer_self hpeer
      { peer with state := .connected, lastSeen := now })
    rw [heq]
    simp only [dispatch, htype, handleHello, hpeer]
    refine ⟨hset, ?_⟩
    rw [heldSince_of_peer? hpeer]
    by_cases hc : peer.state = .connected <;> simp [hc]
  · obtain ⟨message, htype, heq⟩ := @hdispatch .tunnelKeepalive rfl
    have hset := heldSince_of_peer? (peer?_setPeer_self hpeer { peer with lastSeen := now })
    rw [heq]
    simp only [dispatch, htype, handleKeepalive, hpeer]
    rw [heldSince_of_peer? hpeer]
    by_cases hc : peer.state = .connected
    · simpa [hc] using hset
    · simp [hc, heldSince_of_peer? hpeer]
  · obtain ⟨message, htype, heq⟩ := @hdispatch .tunnelBye rfl
    have hset := heldSince_of_peer? (peer?_setPeer_self hpeer
      { peer with state := .disconnected })
    rw [heq]
    simp only [dispatch, htype, handleBye, hpeer]
    exact ⟨hset, trivial⟩

/-! ## What a datagram says -/

theorem type_of_messageOf {datagram : Datagram} {message : LocalMessage}
    (hmessage : messageOf datagram = some message) {code : UInt8} {rest : List UInt8}
    (hbytes : datagram.bytes = code :: rest) : message.type = .ofUInt8 code := by
  obtain ⟨r, hdecap, rfl⟩ := Option.map_eq_some_iff.mp hmessage
  obtain ⟨tail, htail⟩ := MessageBuffer.head_ofBytes code rest
  rw [← hbytes] at htail
  exact type_of_decapsulate hdecap htail

theorem head_of_encapsulate {context : MessageContext} {message : List UInt8}
    {msg : MessageBuffer} (h : encapsulate context message = some msg) :
    ∃ rest, msg.bytes.take (encapsulatedSize context.type message.length) =
      context.type.toUInt8 :: rest := by
  obtain ⟨bytes, hbytes, rfl⟩ := Option.map_eq_some_iff.mp h
  obtain ⟨toNode, -, -, rfl⟩ := encapsulatedBytes_eq_some hbytes
  rw [tunnelHeader, List.cons_append]
  obtain ⟨tail, htail⟩ := MessageBuffer.head_ofBytes context.type.toUInt8
    ((context.fromNode.bytes ++ (toNode.elim [] NodeId.bytes ++
      uint16Bytes message.length)) ++ message)
  have hsize : encapsulatedSize context.type message.length =
      (tunnelHeaderSize context.type - 1 + message.length) + 1 := by
    simp only [encapsulatedSize, tunnelHeaderSize]
    omega
  rw [htail, hsize, List.take_succ_cons]
  exact ⟨_, rfl⟩

/-- A sent datagram begins with the code of its type: a HELLO or KEEPALIVE, the
BYE of a removal, or the type that `forward` was called with. -/
theorem head_of_send_mem_emit {t : UdpTunnel} {e : TunnelEvent} {dest : UdpEndpoint}
    {bytes : List UInt8} (h : .send dest bytes ∈ emit machine t e) :
    ∃ type rest, bytes = TunnelMessageType.toUInt8 type :: rest ∧
      (type = .tunnelHello ∨ type = .tunnelKeepalive ∨
        (type = .tunnelBye ∧ e = .removePeer dest) ∨
        ∃ now fromNode message toNode, e = .forward now type fromNode message toNode) := by
  have hhello : ∀ {dest' : UdpEndpoint}, .send dest bytes ∈ sendHello dest' →
      ∃ rest, bytes = TunnelMessageType.tunnelHello.toUInt8 :: rest := by
    intro dest' hsend
    rw [sendHello_eq, List.mem_singleton] at hsend
    exact ⟨_, (TunnelOutput.send.inj hsend).2⟩
  have heffect := effect t e
  generalize next machine t e = t', emit machine t e = out at heffect h
  cases heffect with
  | hello =>
      split at h
      · simp at h
      · obtain ⟨rest, hbytes⟩ := hhello h
        exact ⟨_, rest, hbytes, Or.inl rfl⟩
  | add | accept =>
      obtain ⟨rest, hbytes⟩ := hhello h
      exact ⟨_, rest, hbytes, Or.inl rfl⟩
  | @remove endpoint =>
      rw [sendBye_eq, List.mem_singleton] at h
      obtain ⟨rfl, rfl⟩ := TunnelOutput.send.inj h
      exact ⟨_, _, rfl, Or.inr (Or.inr (Or.inl ⟨rfl, rfl⟩))⟩
  | maintain =>
      obtain ⟨peer, -, hmem⟩ := List.mem_flatMap.mp h
      unfold maintenanceOutput at hmem
      split at hmem
      · split at hmem
        · simp at hmem
        · rw [sendKeepalive_eq, List.mem_singleton] at hmem
          exact ⟨_, _, (TunnelOutput.send.inj hmem).2, Or.inr (Or.inl rfl)⟩
      · obtain ⟨rest, hbytes⟩ := hhello hmem
        exact ⟨_, rest, hbytes, Or.inl rfl⟩
  | @forward now type fromNode message toNode out hforward =>
      subst hforward
      rw [forward_snd] at h
      split at h
      · simp at h
      · split at h
        · simp at h
        · obtain ⟨dest', -, hraw⟩ := List.mem_map.mp h
          obtain ⟨-, rfl⟩ := TunnelOutput.send.inj hraw
          obtain ⟨rest, hrest⟩ := head_of_encapsulate ‹encapsulate _ _ = some _›
          exact ⟨type, rest, hrest, Or.inr (Or.inr (Or.inr ⟨now, fromNode, message, toNode, rfl⟩))⟩
  | unknown => simp at h
  | leave => simp at h
  | data => simp at h
  | _ => simp at h

theorem flatMap_filter (p : PeerEntry → Bool) (f : PeerEntry → List TunnelOutput)
    (peers : List PeerEntry) :
    (peers.filter p).flatMap f = peers.flatMap (fun q ↦ if p q then f q else []) := by
  induction peers with
  | nil => rfl
  | cons q qs ih => by_cases hq : p q <;> simp [hq, ih]

/-- A tunnel that stops says goodbye to the peers it holds. -/
theorem sentTo_stopListening {t : UdpTunnel} {endpoint : UdpEndpoint}
    (h : t.Ready endpoint) :
    sentTo endpoint t.stopListening.2 =
      if t.heldSince endpoint = none then [] else [controlBytes .tunnelBye] := by
  obtain ⟨idx, peer, hpeer, rfl, hmem⟩ := h.exists_peer
  rw [heldSince_of_peer? hpeer]
  simp only [stopListening, flatMap_filter]
  rw [sentTo_flatMap_of_nodup h.table.distinct hmem]
  · by_cases hc : peer.state = .connected <;> simp [hc]
  · intro q hq
    split
    · rw [sendBye_eq, sentTo_other hq]
    · rfl

/-- What is read from the bytes that `forward` has sent is what it was called with. -/
theorem decapsulate_of_forward {t : UdpTunnel} {now : TimePoint} {type : TunnelMessageType}
    {fromNode : NodeId} {payload : List UInt8} {toNode : Option NodeId} {dest : UdpEndpoint}
    {bytes : List UInt8} {context : MessageContext} {buffer : MessageBuffer}
    (h : .send dest bytes ∈ (t.forward now type fromNode payload toNode).2)
    (hread : decapsulate (MessageBuffer.ofBytes bytes) = some (context, buffer)) :
    context.type = type ∧ context.fromNode = fromNode ∧
      (type.hasToNode = true → context.toNode = toNode) := by
  rw [forward_snd] at h
  split at h
  · cases h
  · split at h
    · cases h
    · rename_i msg hmsg
      obtain ⟨bytes', hbytes, rfl⟩ := Option.map_eq_some_iff.mp hmsg
      have hlen := length_encapsulatedBytes hbytes
      obtain ⟨toNode', hto, hsame, rfl⟩ := encapsulatedBytes_eq_some hbytes
      obtain ⟨dest', -, hraw⟩ := List.mem_map.mp h
      obtain ⟨-, hsent⟩ := TunnelOutput.send.inj hraw
      rw [← hlen] at hsent
      -- the header stays whole where the message is cut off
      have hheader : (tunnelHeader type fromNode toNode' payload.length).length ≤
          kMaxMessageSize := by
        rw [length_tunnelHeader hto]
        exact (tunnelHeaderSize_le type).trans (by decide)
      obtain ⟨rest, hrest⟩ := MessageBuffer.ofBytes_append hheader payload
      rw [← hsent, MessageBuffer.ofBytes_take_ofBytes, decapsulate_header hto hrest] at hread
      obtain ⟨rfl, -⟩ := Prod.mk.inj (Option.some.inj hread)
      exact ⟨rfl, rfl, hsame⟩

theorem messageOf_of_forward {t : UdpTunnel} {now : TimePoint} {type : TunnelMessageType}
    {fromNode : NodeId} {payload : List UInt8} {toNode : Option NodeId} {dest : UdpEndpoint}
    {datagram : Datagram} {message : LocalMessage}
    (h : .send dest datagram.bytes ∈ (t.forward now type fromNode payload toNode).2)
    (hmessage : messageOf datagram = some message) :
    message.type = type ∧ message.fromNode = fromNode ∧
      (type.hasToNode = true → message.toNode = toNode) := by
  obtain ⟨⟨context, buffer⟩, hread, rfl⟩ := Option.map_eq_some_iff.mp hmessage
  exact decapsulate_of_forward h hread

end UdpTunnel

end LinkExtender
