import LinkExtender.ShmTunnel.Backends
import LinkExtender.ShmTunnel.Delivery

/-!
# The two backends forward alike

A shared-memory client and a UDP tunnel, each joined with the same remote sites: the
first by their slots, the second by their endpoints.  As long as they are handed the
same messages from these sites and the same messages from their gateways, each site is
sent the same envelopes by both, in the same order.
-/

namespace LinkExtender

open EventMachine

/-- What either of the tunnels is used for, with the remote sites numbered. -/
inductive TunnelUse (n : ℕ) where
  | received (peer : Fin n) (now : TimePoint) (m : DataMessage)
  | forward (now : TimePoint) (m : DataMessage)
deriving DecidableEq

variable {n : ℕ}

/-! ## The shared-memory client -/

namespace ShmTunnel

def used (slot : Fin n → ℕ) : Machine ShmTunnel (TunnelUse n) ShmOutput
  | s, .received peer _ m => machine s (.popped (slot peer) m.envelope)
  | s, .forward now m => machine s (.forward now m.type m.fromNode m.payload m.toNode)

/-- The envelope that an output pushes into a mailbox. -/
def pushedTo? (idx : ℕ) : ShmOutput → Option MessageBuffer
  | .push clientIdx _ msg => if clientIdx = idx then some msg else none
  | .forwardLocally _ => none

theorem forward_fst_data (s : ShmTunnel) (now : TimePoint) (m : DataMessage) :
    (s.forward now m.type m.fromNode m.payload m.toNode).1 =
      { s with
        mDedupCache := (shouldForward s.mDedupCache now m.type m.fromNode m.payload).2 } := by
  unfold forward
  rw [m.encapsulate_eq]
  rcases shouldForward s.mDedupCache now m.type m.fromNode m.payload with ⟨passes, cache⟩
  cases passes <;> rfl

theorem handlePopped_envelope_fst {s : ShmTunnel} (hrun : s.isRunning = true) (source : ℕ)
    (m : DataMessage) :
    (s.handlePopped source m.envelope).1 =
      { s with
        remoteNodeIdToTunnelClientIdx :=
          if m.type = .byebye then s.remoteNodeIdToTunnelClientIdx.erase m.fromNode
          else s.remoteNodeIdToTunnelClientIdx.emplace m.fromNode source } := by
  have hdata := m.isData
  simp only [handlePopped, hrun, if_true, m.decapsulate_envelope]
  cases htype : m.type with
  | byebye => simp
  | broadcast | unicast | measurementPing | measurementPong => simp
  | _ => simp [htype, TunnelMessageType.isData] at hdata

/-- Reading a data message pushes nothing. -/
theorem filterMap_pushedTo_popped {s : ShmTunnel} (hrun : s.isRunning = true) (source : ℕ)
    (m : DataMessage) (idx : ℕ) :
    (s.handlePopped source m.envelope).2.filterMap (pushedTo? idx) = [] := by
  have hdata := m.isData
  simp only [handlePopped, hrun, if_true, m.decapsulate_envelope]
  cases htype : m.type with
  | byebye => simp
  | broadcast | unicast | measurementPing | measurementPong => simp [pushedTo?]
  | _ => simp [htype, TunnelMessageType.isData] at hdata

theorem filterMap_pushedTo_forward (s : ShmTunnel) (now : TimePoint) (m : DataMessage)
    (idx : ℕ) :
    (s.forward now m.type m.fromNode m.payload m.toNode).2.filterMap (pushedTo? idx) =
      if (shouldForward s.mDedupCache now m.type m.fromNode m.payload).1 = true ∧
          idx ∈ s.recipients m.type m.toNode then [m.envelope] else [] := by
  rw [s.forward_snd_data]
  split
  · rename_i hpasses
    have hview : pushedTo? idx ∘ (fun clientIdx ↦ .push clientIdx s.mClientId m.envelope) =
        fun clientIdx ↦ if clientIdx = idx then some m.envelope else none := rfl
    rw [List.filterMap_map, hview, hpasses,
      filterMap_ite_of_nodup (s.nodup_recipients m.type m.toNode)]
    simp
  · rename_i hstops
    simp [hstops]

end ShmTunnel

/-! ## The UDP tunnel -/

namespace UdpTunnel

def used (endpoint : Fin n → UdpEndpoint) : Machine UdpTunnel (TunnelUse n) TunnelOutput
  | t, .received peer now m => machine t (.receive now (endpoint peer) m.datagram)
  | t, .forward now m => machine t (.forward now m.type m.fromNode m.payload m.toNode)

/-- The buffer into which the other side copies what an output sends to an endpoint. -/
def sentTo? (endpoint : UdpEndpoint) : TunnelOutput → Option MessageBuffer
  | .send dest bytes => if dest = endpoint then some (MessageBuffer.ofBytes bytes) else none
  | _ => none

theorem receive_data (t : UdpTunnel) (now : TimePoint) (sender : UdpEndpoint)
    (m : DataMessage) :
    t.receive now sender m.datagram = t.handleData sender m.received := by
  have hmessage : messageOf m.datagram = some m.received := by
    rw [messageOf, m.ofBytes_datagram, m.decapsulate_envelope]
    rfl
  have hcontrol : m.received.type.isControl = false :=
    TunnelMessageType.isControl_of_isData m.isData
  obtain ⟨message, hread, heq⟩ := receive_eq_dispatch t now sender m.datagram
  obtain rfl : message = m.received := Option.some.inj (hread.symm.trans hmessage)
  rw [heq, dispatch_of_data hcontrol]

theorem forward_fst_data (t : UdpTunnel) (now : TimePoint) (m : DataMessage) :
    (t.forward now m.type m.fromNode m.payload m.toNode).1 =
      { t with
        mDedupCache := (shouldForward t.mDedupCache now m.type m.fromNode m.payload).2 } := by
  unfold forward
  rw [m.encapsulate_eq]
  rcases shouldForward t.mDedupCache now m.type m.fromNode m.payload with ⟨passes, cache⟩
  cases passes <;> rfl

theorem filterMap_sentTo_forward {t : UdpTunnel} (now : TimePoint) (m : DataMessage)
    (hnodup : (t.recipients m.type m.toNode).Nodup) (endpoint : UdpEndpoint) :
    (t.forward now m.type m.fromNode m.payload m.toNode).2.filterMap (sentTo? endpoint) =
      if (shouldForward t.mDedupCache now m.type m.fromNode m.payload).1 = true ∧
          endpoint ∈ t.recipients m.type m.toNode then [m.envelope] else [] := by
  rw [t.forward_snd_data]
  split
  · rename_i hpasses
    have hview : sentTo? endpoint ∘ (fun dest ↦ .send dest m.datagram.bytes) =
        fun dest ↦ if dest = endpoint then some m.envelope else none := by
      funext dest
      simp [sentTo?, m.ofBytes_datagram]
    rw [List.filterMap_map, hview, hpasses, filterMap_ite_of_nodup hnodup]
    simp
  · rename_i hstops
    simp [hstops]

end UdpTunnel

/-! ## Side by side -/

/-- The two have forwarded the same messages, and have the same nodes behind the same
sites.  Every site is there: its slot is one of the segment, its endpoint is connected. -/
structure Mirrors (slot : Fin n → ℕ) (endpoint : Fin n → UdpEndpoint) (s : ShmTunnel)
    (t : UdpTunnel) : Prop where
  isRunning : s.isRunning = true
  cache : s.mDedupCache = t.mDedupCache
  slot_injective : Function.Injective slot
  slot_lt : ∀ i, slot i < maxClients
  slot_ne : ∀ i, slot i ≠ s.mClientId
  endpoint_injective : Function.Injective endpoint
  peers : t.mPeers.map (fun peer ↦ (peer.endpoint, peer.state)) =
    List.ofFn (fun i ↦ (endpoint i, PeerConnectionState.connected))
  index : ∀ i, t.mEndpointToPeerIdx.find (endpoint i) = some i.val
  routes : ∀ node, ∃ site : Option (Fin n),
    s.remoteNodeIdToTunnelClientIdx.find node = site.map slot ∧
      t.remoteNodeIdToPeerIdx.find node = site.map Fin.val

namespace Mirrors

variable {slot : Fin n → ℕ} {endpoint : Fin n → UdpEndpoint} {s : ShmTunnel} {t : UdpTunnel}

theorem exists_getElem? (h : Mirrors slot endpoint s t) (i : Fin n) :
    ∃ peer, t.mPeers[i.val]? = some peer ∧ peer.endpoint = endpoint i ∧
      peer.state = .connected := by
  have hget := congrArg (fun l ↦ l[i.val]?) h.peers
  simp only [List.getElem?_map, List.getElem?_ofFn, i.isLt, dite_true] at hget
  obtain ⟨peer, hpeer, heq⟩ := Option.map_eq_some_iff.mp hget
  obtain ⟨hendpoint, hstate⟩ := Prod.mk.inj heq
  exact ⟨peer, hpeer, hendpoint, hstate⟩

/-- Every message that goes to all peers goes to the endpoint of each site. -/
theorem connected_endpoints (h : Mirrors slot endpoint s t) :
    (t.mPeers.filter (fun peer ↦ peer.state = .connected)).map PeerEntry.endpoint =
      List.ofFn endpoint := by
  have hall : ∀ peer ∈ t.mPeers, peer.state = .connected := by
    intro peer hpeer
    have hmem : (peer.endpoint, peer.state) ∈
        t.mPeers.map (fun peer ↦ (peer.endpoint, peer.state)) :=
      List.mem_map_of_mem hpeer
    rw [h.peers, List.mem_ofFn] at hmem
    obtain ⟨i, hi⟩ := hmem
    exact (Prod.mk.inj hi).2.symm
  have hendpoints := congrArg (List.map Prod.fst) h.peers
  rw [List.map_map, List.map_ofFn] at hendpoints
  rw [List.filter_eq_self.mpr (by simpa using hall)]
  exact hendpoints

theorem route_eq (h : Mirrors slot endpoint s t) {node : NodeId} {site : Option (Fin n)}
    (hsite : t.remoteNodeIdToPeerIdx.find node = site.map Fin.val) :
    t.route node = site.map endpoint := by
  unfold UdpTunnel.route
  cases site with
  | none => simp [hsite]
  | some i =>
      obtain ⟨peer, hget, hendpoint, hstate⟩ := h.exists_getElem? i
      simp [hsite, hget, hendpoint, hstate]

theorem nodup_recipients (h : Mirrors slot endpoint s t) (type : TunnelMessageType)
    (toNode : Option NodeId) : (t.recipients type toNode).Nodup := by
  unfold UdpTunnel.recipients
  split
  · cases toNode with
    | none => exact List.nodup_nil
    | some node => cases hroute : t.route node <;> simp [hroute]
  · rw [h.connected_endpoints]
    exact List.nodup_ofFn.mpr h.endpoint_injective

theorem mem_recipients_iff (h : Mirrors slot endpoint s t) (type : TunnelMessageType)
    (toNode : Option NodeId) (i : Fin n) :
    slot i ∈ s.recipients type toNode ↔ endpoint i ∈ t.recipients type toNode := by
  unfold ShmTunnel.recipients UdpTunnel.recipients
  split
  · cases toNode with
    | none => simp
    | some node =>
        obtain ⟨site, hslot, hidx⟩ := h.routes node
        simp only [hslot, h.route_eq hidx]
        cases site with
        | none => simp
        | some j => simp [h.slot_injective.eq_iff, h.endpoint_injective.eq_iff]
  · rw [h.connected_endpoints]
    simp [h.slot_lt i, h.slot_ne i]

/-! ### One use -/

theorem received (h : Mirrors slot endpoint s t) (i : Fin n) (now : TimePoint)
    (m : DataMessage) :
    Mirrors slot endpoint (s.handlePopped (slot i) m.envelope).1
        (t.receive now (endpoint i) m.datagram).1 ∧
      (t.receive now (endpoint i) m.datagram).2 = [.forwardLocally m.received] := by
  obtain ⟨peer, hget, hendpoint, hstate⟩ := h.exists_getElem? i
  have hpeer : t.peer? (endpoint i) = some (i.val, peer) := by
    simp [UdpTunnel.peer?, h.index i, hget]
  rw [ShmTunnel.handlePopped_envelope_fst h.isRunning, UdpTunnel.receive_data,
    UdpTunnel.handleData, hpeer]
  simp only [hstate, if_true, and_true]
  refine { h with routes := fun node ↦ ?_ }
  obtain ⟨site, hslot, hidx⟩ := h.routes node
  change ∃ site' : Option (Fin n),
    (if m.type = .byebye then s.remoteNodeIdToTunnelClientIdx.erase m.fromNode
      else s.remoteNodeIdToTunnelClientIdx.emplace m.fromNode (slot i)).find node =
        site'.map slot ∧
    (if m.type = .byebye then t.remoteNodeIdToPeerIdx.erase m.fromNode
      else t.remoteNodeIdToPeerIdx.emplace m.fromNode i.val).find node = site'.map Fin.val
  split
  · rw [PartialMap.find_erase, PartialMap.find_erase]
    split
    · exact ⟨none, rfl, rfl⟩
    · exact ⟨site, hslot, hidx⟩
  · rw [PartialMap.find_emplace, PartialMap.find_emplace]
    by_cases hnode : node = m.fromNode
    · subst hnode
      rw [hslot, hidx]
      cases site with
      | none => exact ⟨some i, by simp, by simp⟩
      | some j => exact ⟨some j, by simp, by simp⟩
    · simp only [hnode, false_and, if_false]
      exact ⟨site, hslot, hidx⟩

theorem next (h : Mirrors slot endpoint s t) (use : TunnelUse n) :
    Mirrors slot endpoint (next (ShmTunnel.used slot) s use)
      (next (UdpTunnel.used endpoint) t use) := by
  cases use with
  | received i now m => exact (h.received i now m).1
  | forward now m =>
      have hshm : EventMachine.next (ShmTunnel.used slot) s (.forward now m) =
          (s.forward now m.type m.fromNode m.payload m.toNode).1 := rfl
      have hudp : EventMachine.next (UdpTunnel.used endpoint) t (.forward now m) =
          (t.forward now m.type m.fromNode m.payload m.toNode).1 := rfl
      rw [hshm, hudp, ShmTunnel.forward_fst_data, UdpTunnel.forward_fst_data]
      exact { h with cache := by rw [h.cache] }

/-- What a use sends to a site is the same for both. -/
theorem sent_eq (h : Mirrors slot endpoint s t) (use : TunnelUse n) (i : Fin n) :
    (emit (ShmTunnel.used slot) s use).filterMap (ShmTunnel.pushedTo? (slot i)) =
      (emit (UdpTunnel.used endpoint) t use).filterMap (UdpTunnel.sentTo? (endpoint i)) := by
  cases use with
  | received j now m =>
      have hshm := ShmTunnel.filterMap_pushedTo_popped h.isRunning (slot j) m (slot i)
      refine hshm.trans ?_
      simp only [emit, UdpTunnel.used, UdpTunnel.machine, (h.received j now m).2]
      rfl
  | forward now m =>
      refine (s.filterMap_pushedTo_forward now m (slot i)).trans ?_
      refine Eq.trans ?_ (UdpTunnel.filterMap_sentTo_forward now m
        (h.nodup_recipients m.type m.toNode) (endpoint i)).symm
      simp only [h.cache, h.mem_recipients_iff]

/-- Over any uses each site is sent the same envelopes by both, in the same order. -/
theorem forwards_alike (h : Mirrors slot endpoint s t) (uses : List (TunnelUse n))
    (i : Fin n) :
    (outputs (ShmTunnel.used slot) s uses).filterMap (ShmTunnel.pushedTo? (slot i)) =
      (outputs (UdpTunnel.used endpoint) t uses).filterMap
        (UdpTunnel.sentTo? (endpoint i)) :=
  filterMap_outputs_simulation (fun _ _ use hR ↦ hR.next use)
    (fun _ _ use hR ↦ hR.sent_eq use i) h uses

theorem onePeer_eq : UdpTunnel.onePeer =
    (UdpTunnel.create [localhost 1]).setPeer 0 ⟨localhost 1, .connected, 0⟩ := by
  obtain ⟨message, hhello, htype⟩ := UdpTunnel.exists_messageOf_controlDatagram
    (rfl : TunnelMessageType.tunnelHello.isControl = true)
  obtain ⟨message', hread, heq⟩ := UdpTunnel.receive_eq_dispatch
    (UdpTunnel.create [localhost 1]) 0 (localhost 1) (UdpTunnel.controlDatagram .tunnelHello)
  obtain rfl : message' = message := Option.some.inj (hread.symm.trans hhello)
  have hpeer : (UdpTunnel.create [localhost 1]).peer? (localhost 1) =
      some (0, UdpTunnel.freshEntry (localhost 1)) := by decide
  change ((UdpTunnel.create [localhost 1]).receive 0 (localhost 1) _).1 = _
  rw [heq, UdpTunnel.dispatch, htype]
  simp only [UdpTunnel.handleHello, hpeer]
  rfl

/-- A client and a tunnel that have just been joined with one site. -/
theorem mirrors_onePeer : Mirrors (fun _ : Fin 1 ↦ 1) (fun _ ↦ localhost 1)
    (ShmTunnel.create 0) UdpTunnel.onePeer where
  isRunning := rfl
  cache := by rw [onePeer_eq]; rfl
  slot_injective := fun i j _ ↦ Subsingleton.elim i j
  slot_lt := by decide
  slot_ne := by decide
  endpoint_injective := fun i j _ ↦ Subsingleton.elim i j
  peers := by rw [onePeer_eq]; rfl
  index := by rw [onePeer_eq]; decide
  routes := by rw [onePeer_eq]; exact fun _ ↦ ⟨none, rfl, rfl⟩

/-- A node of the other site is heard of and then answered. -/
theorem forwards_alike_onePeer :
    let uses : List (TunnelUse 1) := [.received 0 0 (ShmTunnel.plainMessage .broadcast rfl),
      .forward 0 (ShmTunnel.plainMessage .unicast rfl)]
    (outputs (ShmTunnel.used (fun _ ↦ 1)) (ShmTunnel.create 0) uses).filterMap
        (ShmTunnel.pushedTo? 1) =
      (outputs (UdpTunnel.used (fun _ ↦ localhost 1)) UdpTunnel.onePeer uses).filterMap
        (UdpTunnel.sentTo? (localhost 1)) :=
  mirrors_onePeer.forwards_alike _ 0

end Mirrors

end LinkExtender
