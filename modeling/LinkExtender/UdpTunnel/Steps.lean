import LinkExtender.UdpTunnel
import LinkExtender.Library.LastIndex

/-!
# What one step of the tunnel does

One lemma for each part of the state that a handler can touch and one for each
kind of output.  The invariants of the following modules are derived from these
lemmas and never unfold a handler again.
-/

namespace LinkExtender

namespace UdpTunnel

open EventMachine LastIndex

/-! ## Receiving, by message type -/

def messageOf (datagram : Datagram) : Option LocalMessage :=
  (decapsulate (MessageBuffer.ofBytes datagram.bytes)).map
    (fun r ↦ ⟨r.1.type, r.1.fromNode, r.2, r.1.size, r.1.toNode⟩)

def dispatch (t : UdpTunnel) (now : TimePoint) (sender : UdpEndpoint)
    (message : LocalMessage) : UdpTunnel × List TunnelOutput :=
  match message.type with
  | .tunnelHello => t.handleHello now sender
  | .tunnelKeepalive => t.handleKeepalive now sender
  | .tunnelBye => t.handleBye sender
  | _ => t.handleData sender message

theorem receive_eq_dispatch (t : UdpTunnel) (now : TimePoint) (sender : UdpEndpoint)
    (datagram : Datagram) :
    ∃ message, messageOf datagram = some message ∧
      t.receive now sender datagram = t.dispatch now sender message := by
  obtain ⟨context, hdecap, -, -⟩ :=
    exists_decapsulate (MessageBuffer.ofBytes datagram.bytes)
  refine ⟨_, by rw [messageOf, hdecap]; rfl, ?_⟩
  simp only [receive, handleReceive, hdecap, dispatch]
  cases context.type <;> rfl

theorem dispatch_of_data {t : UdpTunnel} {now : TimePoint} {sender : UdpEndpoint}
    {message : LocalMessage} (h : message.type.isControl = false) :
    t.dispatch now sender message = t.handleData sender message := by
  unfold dispatch
  cases htype : message.type <;> simp [htype, TunnelMessageType.isControl] at h ⊢

/-! ## Sending -/

theorem sendRaw_encapsulatedBytes {context : MessageContext}
    {message bytes : List UInt8} (h : encapsulatedBytes context message = some bytes)
    (hfits : encapsulatedSize context.type message.length ≤ kMaxMessageSize)
    (dest : UdpEndpoint) :
    sendRaw (MessageBuffer.ofBytes bytes)
      (encapsulatedSize context.type message.length) dest = .send dest bytes := by
  have hlen := length_encapsulatedBytes h
  rw [sendRaw, ← hlen, MessageBuffer.take_bytes_ofBytes (hlen.trans_le hfits)]

/-- Control messages are bare envelopes of the zero node. -/
def controlBytes (type : TunnelMessageType) : List UInt8 :=
  tunnelHeader type default none 0

theorem sendControlMessage_eq {type : TunnelMessageType} (h : type.isControl = true)
    (dest : UdpEndpoint) :
    sendControlMessage type dest = [.send dest (controlBytes type)] := by
  have htype : type.hasToNode = false := by
    cases type <;> simp [TunnelMessageType.isControl] at h <;> rfl
  have hbytes : encapsulatedBytes ⟨default, type, none, 0⟩ [] =
      some (controlBytes type) := by
    simp [encapsulatedBytes, htype, controlBytes]
  have hfits : encapsulatedSize type ([] : List UInt8).length ≤ kMaxMessageSize := by
    have := tunnelHeaderSize_le type
    simp only [encapsulatedSize, List.length_nil, kMaxMessageSize]
    omega
  have hraw := sendRaw_encapsulatedBytes hbytes hfits dest
  simp only [sendControlMessage, encapsulate, hbytes, Option.map_some]
  exact congrArg (fun out ↦ [out]) hraw

@[simp] theorem sendHello_eq (dest : UdpEndpoint) :
    sendHello dest = [.send dest (controlBytes .tunnelHello)] :=
  sendControlMessage_eq rfl dest

@[simp] theorem sendKeepalive_eq (dest : UdpEndpoint) :
    sendKeepalive dest = [.send dest (controlBytes .tunnelKeepalive)] :=
  sendControlMessage_eq rfl dest

@[simp] theorem sendBye_eq (dest : UdpEndpoint) :
    sendBye dest = [.send dest (controlBytes .tunnelBye)] :=
  sendControlMessage_eq rfl dest

theorem length_controlBytes (type : TunnelMessageType) :
    (controlBytes type).length = 11 := by
  simp [controlBytes, tunnelHeader, (default : NodeId).size_eq]

def controlDatagram (type : TunnelMessageType) : Datagram :=
  ⟨controlBytes type, by rw [length_controlBytes]; decide⟩

theorem exists_messageOf_controlDatagram {type : TunnelMessageType}
    (h : type.isControl = true) :
    ∃ message, messageOf (controlDatagram type) = some message ∧ message.type = type := by
  have htype : type.hasToNode = false := by
    cases type <;> simp [TunnelMessageType.isControl] at h <;> rfl
  have hbytes := MessageBuffer.bytes_ofBytes (controlDatagram type).size_le
  have hdecap := decapsulate_header (by simp [htype]) hbytes
  exact ⟨_, by rw [messageOf, hdecap]; rfl, rfl⟩

/-! ## The peer table -/

def endpoints (t : UdpTunnel) : List UdpEndpoint := t.mPeers.map PeerEntry.endpoint

@[simp] theorem length_endpoints (t : UdpTunnel) :
    t.endpoints.length = t.mPeers.length := by
  simp [endpoints]

theorem getElem?_endpoints (t : UdpTunnel) (i : ℕ) :
    t.endpoints[i]? = (t.mPeers[i]?).map PeerEntry.endpoint := by
  simp [endpoints]

@[simp] theorem endpoints_pushPeer (t : UdpTunnel) (endpoint : UdpEndpoint) :
    (t.pushPeer endpoint).endpoints = t.endpoints ++ [endpoint] := by
  simp [endpoints, pushPeer, freshEntry]

theorem endpoints_setPeer {t : UdpTunnel} {idx : ℕ} {old new : PeerEntry}
    (hold : t.mPeers[idx]? = some old) (hnew : new.endpoint = old.endpoint) :
    (t.setPeer idx new).endpoints = t.endpoints := by
  apply List.ext_getElem?
  intro i
  simp only [endpoints, setPeer, List.getElem?_map, List.getElem?_set]
  by_cases hi : idx = i
  · subst hi
    obtain ⟨hlt, hget⟩ := List.getElem?_eq_some_iff.mp hold
    simp [hlt, hget, hnew]
  · simp [hi]

theorem peer?_eq_some {t : UdpTunnel} {endpoint : UdpEndpoint} {idx : ℕ}
    {peer : PeerEntry} :
    t.peer? endpoint = some (idx, peer) ↔
      t.mEndpointToPeerIdx.find endpoint = some idx ∧ t.mPeers[idx]? = some peer := by
  unfold peer?
  cases hfind : t.mEndpointToPeerIdx.find endpoint with
  | none => simp
  | some i =>
      cases hget : t.mPeers[i]? with
      | none =>
          simp only [hget, Option.map_none, reduceCtorEq, false_iff, Option.some.injEq,
            not_and]
          rintro rfl
          simp [hget]
      | some p =>
          simp only [hget, Option.map_some, Option.some.injEq, Prod.mk.injEq]
          constructor
          · rintro ⟨rfl, rfl⟩
            exact ⟨rfl, hget⟩
          · rintro ⟨rfl, hp⟩
            exact ⟨rfl, Option.some.inj (hget.symm.trans hp)⟩

/-- The index finds a connected entry for the endpoint. -/
def isConnected (t : UdpTunnel) (endpoint : UdpEndpoint) : Bool :=
  (t.peer? endpoint).any (fun found ↦ found.2.state = .connected)

theorem isConnected_of_peer? {t : UdpTunnel} {endpoint : UdpEndpoint} {idx : ℕ}
    {peer : PeerEntry} (hpeer : t.peer? endpoint = some (idx, peer))
    (hstate : peer.state = .connected) : t.isConnected endpoint = true := by
  simp [isConnected, hpeer, hstate]

theorem isConnected_eq_true {t : UdpTunnel} {endpoint : UdpEndpoint} :
    t.isConnected endpoint = true ↔
      ∃ idx peer, t.peer? endpoint = some (idx, peer) ∧ peer.state = .connected := by
  simp [isConnected, Option.any_eq_true]

/-! ## Maintenance, peer by peer -/

def maintained (now : TimePoint) (peer : PeerEntry) : PeerEntry :=
  if peer.state = .connected then
    if kKeepaliveTimeout < now - peer.lastSeen then { peer with state := .disconnected }
    else peer
  else { peer with state := .connecting }

def maintenanceOutput (now : TimePoint) (peer : PeerEntry) : List TunnelOutput :=
  if peer.state = .connected then
    if kKeepaliveTimeout < now - peer.lastSeen then [] else sendKeepalive peer.endpoint
  else sendHello peer.endpoint

@[simp] theorem endpoint_maintained (now : TimePoint) (peer : PeerEntry) :
    (maintained now peer).endpoint = peer.endpoint := by
  unfold maintained
  split
  · split <;> rfl
  · rfl

theorem endpoint_of_send_mem_maintenanceOutput {now : TimePoint} {peer : PeerEntry}
    {dest : UdpEndpoint} {bytes : List UInt8}
    (h : .send dest bytes ∈ maintenanceOutput now peer) : dest = peer.endpoint := by
  unfold maintenanceOutput at h
  split at h
  · split at h
    · simp at h
    · exact (TunnelOutput.send.inj (by simpa using h)).1
  · exact (TunnelOutput.send.inj (by simpa using h)).1

theorem state_maintained_eq_connected {now : TimePoint} {peer : PeerEntry} :
    (maintained now peer).state = .connected ↔
      peer.state = .connected ∧ ¬ TimedOut now peer := by
  unfold maintained TimedOut
  by_cases hc : peer.state = .connected
  · by_cases hlate : kKeepaliveTimeout < now - peer.lastSeen <;> simp [hc, hlate]
  · simp [hc]

theorem maintained_of_alive {now : TimePoint} {peer : PeerEntry}
    (hc : peer.state = .connected) (halive : ¬ TimedOut now peer) :
    maintained now peer = peer := by
  have hnot : ¬ kKeepaliveTimeout < now - peer.lastSeen := fun h ↦ halive ⟨hc, h⟩
  simp [maintained, hc, hnot]

/-- A condition on the entries from position `idx` on, read off the first entry. -/
theorem forall_position_cons (peer : PeerEntry) (peers : List PeerEntry) (idx i : ℕ)
    (P : PeerEntry → Prop) :
    (∀ k q, (peer :: peers)[k]? = some q → i = idx + k → P q) ↔
      (i = idx → P peer) ∧ ∀ k q, peers[k]? = some q → i = idx + 1 + k → P q := by
  constructor
  · intro h
    refine ⟨fun hi ↦ h 0 peer rfl (by omega), ?_⟩
    intro k q hq hi
    exact h (k + 1) q (by simpa using hq) (by omega)
  · rintro ⟨hhead, htail⟩ k q hq hi
    cases k with
    | zero =>
        obtain rfl : peer = q := by simpa using hq
        apply hhead
        omega
    | succ k => exact htail k q (by simpa using hq) (by omega)

theorem maintainPeers_of_not_connected (now : TimePoint) (idx : ℕ) {peer : PeerEntry}
    (hc : peer.state ≠ .connected) (peers : List PeerEntry) (routes : PartialMap NodeId ℕ) :
    maintainPeers now idx (peer :: peers) routes =
      ({ peer with state := .connecting } :: (maintainPeers now (idx + 1) peers routes).1,
        (maintainPeers now (idx + 1) peers routes).2.1,
        sendHello peer.endpoint ++ (maintainPeers now (idx + 1) peers routes).2.2) := by
  cases hs : peer.state with
  | connected => exact absurd hs hc
  | disconnected => simp [maintainPeers, hs]
  | connecting => simp [maintainPeers, hs]

/-- The pass treats each peer by itself, erases the routes of those that timed
out and sends in table order. -/
theorem maintainPeers_spec (now : TimePoint) (idx : ℕ) (peers : List PeerEntry)
    (routes : PartialMap NodeId ℕ) :
    (maintainPeers now idx peers routes).1 = peers.map (maintained now) ∧
    (∀ node i, (maintainPeers now idx peers routes).2.1.find node = some i ↔
      routes.find node = some i ∧
        ∀ k peer, peers[k]? = some peer → i = idx + k → ¬ TimedOut now peer) ∧
    (maintainPeers now idx peers routes).2.2 =
      peers.flatMap (maintenanceOutput now) := by
  induction peers generalizing idx routes with
  | nil => simp [maintainPeers]
  | cons peer peers ih =>
      simp only [forall_position_cons]
      by_cases hc : peer.state = .connected
      · by_cases hlate : kKeepaliveTimeout < now - peer.lastSeen
        · obtain ⟨ih₁, ih₂, ih₃⟩ := ih (idx + 1) (erasePeerNodeIds routes idx)
          refine ⟨?_, ?_, ?_⟩
          · simp [maintainPeers, hc, hlate, ih₁, maintained]
          · intro node i
            simp only [maintainPeers, hc, if_pos hlate]
            rw [ih₂, erasePeerNodeIds, PartialMap.find_eraseValues_eq_some]
            simp only [TimedOut, hc, hlate, and_self, not_true_eq_false, imp_false,
              decide_eq_false_iff_not]
            exact and_assoc
          · simp [maintainPeers, hc, hlate, ih₃, maintenanceOutput]
        · obtain ⟨ih₁, ih₂, ih₃⟩ := ih (idx + 1) routes
          refine ⟨?_, ?_, ?_⟩
          · simp [maintainPeers, hc, hlate, ih₁, maintained]
          · intro node i
            simp only [maintainPeers, hc, if_neg hlate]
            rw [ih₂]
            simp [TimedOut, hlate]
          · simp [maintainPeers, hc, hlate, ih₃, maintenanceOutput]
      · obtain ⟨ih₁, ih₂, ih₃⟩ := ih (idx + 1) routes
        have hstep := maintainPeers_of_not_connected now idx hc peers routes
        refine ⟨?_, ?_, ?_⟩
        · simp [hstep, ih₁, maintained, hc]
        · intro node i
          rw [hstep]
          simp [ih₂, TimedOut, hc]
        · simp [hstep, ih₃, maintenanceOutput, hc]

theorem mPeers_runMaintenance {t : UdpTunnel} (hrun : t.isRunning = true)
    (now : TimePoint) :
    (t.runMaintenance now).1.mPeers = t.mPeers.map (maintained now) := by
  simp [runMaintenance, hrun, maintainPeers_spec]

@[simp] theorem mEndpointToPeerIdx_runMaintenance (t : UdpTunnel) (now : TimePoint) :
    (t.runMaintenance now).1.mEndpointToPeerIdx = t.mEndpointToPeerIdx := by
  unfold runMaintenance
  split <;> rfl

@[simp] theorem mDedupCache_runMaintenance (t : UdpTunnel) (now : TimePoint) :
    (t.runMaintenance now).1.mDedupCache = t.mDedupCache := by
  unfold runMaintenance
  split <;> rfl

/-- A route survives a pass unless the peer at its position timed out. -/
theorem find_routes_runMaintenance {t : UdpTunnel} (hrun : t.isRunning = true)
    (now : TimePoint) (node : NodeId) (i : ℕ) :
    (t.runMaintenance now).1.remoteNodeIdToPeerIdx.find node = some i ↔
      t.remoteNodeIdToPeerIdx.find node = some i ∧
        ∀ peer, t.mPeers[i]? = some peer → ¬ TimedOut now peer := by
  simp only [runMaintenance, hrun, if_true]
  rw [(maintainPeers_spec now 0 t.mPeers t.remoteNodeIdToPeerIdx).2.1]
  apply and_congr_right
  intro _
  constructor
  · intro h peer hpeer
    exact h i peer hpeer (Nat.zero_add i).symm
  · rintro h k peer hpeer rfl
    apply h peer
    simpa using hpeer

theorem emit_runMaintenance {t : UdpTunnel} (hrun : t.isRunning = true)
    (now : TimePoint) :
    (t.runMaintenance now).2 = t.mPeers.flatMap (maintenanceOutput now) := by
  simp [runMaintenance, hrun, maintainPeers_spec]

/-! ## Forwarding -/

def cacheAfter (t : UdpTunnel) (now : TimePoint) (type : TunnelMessageType)
    (fromNode : NodeId) (message : List UInt8) : DedupCache :=
  if type.isDeduplicated then
    (t.mDedupCache.isDuplicate now type.toUInt8 fromNode message).2
  else t.mDedupCache

def Suppressed (t : UdpTunnel) (now : TimePoint) (type : TunnelMessageType)
    (fromNode : NodeId) (message : List UInt8) : Prop :=
  (shouldForward t.mDedupCache now type fromNode message).1 = false

instance (t : UdpTunnel) (now : TimePoint) (type : TunnelMessageType)
    (fromNode : NodeId) (message : List UInt8) :
    Decidable (t.Suppressed now type fromNode message) :=
  inferInstanceAs (Decidable (_ = _))

theorem suppressed_iff {t : UdpTunnel} {now : TimePoint} {type : TunnelMessageType}
    {fromNode : NodeId} {message : List UInt8} :
    t.Suppressed now type fromNode message ↔ type.isDeduplicated = true ∧
      (t.mDedupCache.isDuplicate now type.toUInt8 fromNode message).1 = true := by
  unfold Suppressed shouldForward
  by_cases h : type.isDeduplicated <;> simp [h]

theorem shouldForward_eq (t : UdpTunnel) (now : TimePoint) (type : TunnelMessageType)
    (fromNode : NodeId) (message : List UInt8) :
    shouldForward t.mDedupCache now type fromNode message =
      (decide (¬ t.Suppressed now type fromNode message),
        t.cacheAfter now type fromNode message) := by
  unfold Suppressed shouldForward cacheAfter
  by_cases h : type.isDeduplicated
  · simp [h]
  · simp [h]

theorem forward_fst (t : UdpTunnel) (now : TimePoint) (type : TunnelMessageType)
    (fromNode : NodeId) (message : List UInt8) (toNode : Option NodeId) :
    (t.forward now type fromNode message toNode).1 =
      { t with mDedupCache := t.cacheAfter now type fromNode message } := by
  unfold forward
  rw [shouldForward_eq]
  by_cases hs : t.Suppressed now type fromNode message
  · simp [hs]
  · cases henc : encapsulate ⟨fromNode, type, toNode, 0⟩ message <;> simp [hs]

/-- A message that passes the filter and the envelope goes to its recipients;
any other is not sent at all. -/
theorem forward_snd (t : UdpTunnel) (now : TimePoint) (type : TunnelMessageType)
    (fromNode : NodeId) (message : List UInt8) (toNode : Option NodeId) :
    (t.forward now type fromNode message toNode).2 =
      if t.Suppressed now type fromNode message then [] else
        match encapsulate ⟨fromNode, type, toNode, 0⟩ message with
        | none => []
        | some msg => (t.recipients type toNode).map
            (sendRaw msg (encapsulatedSize type message.length)) := by
  unfold forward
  rw [shouldForward_eq]
  by_cases hs : t.Suppressed now type fromNode message
  · simp [hs]
  · cases henc : encapsulate ⟨fromNode, type, toNode, 0⟩ message with
    | none => simp [hs]
    | some msg => simp [hs]

theorem forward_snd_of_fits {t : UdpTunnel} {now : TimePoint} {type : TunnelMessageType}
    {fromNode : NodeId} {message : List UInt8} {toNode : Option NodeId}
    (hpassed : ¬ t.Suppressed now type fromNode message)
    (hto : toNode.isSome = type.hasToNode)
    (hfits : encapsulatedSize type message.length ≤ kMaxMessageSize) :
    (t.forward now type fromNode message toNode).2 =
      (t.recipients type toNode).map (fun dest ↦
        .send dest (tunnelHeader type fromNode toNode message.length ++ message)) := by
  have hbytes := @encapsulatedBytes_of_isSome type fromNode toNode hto 0 message
  simp only [forward_snd, hpassed, if_false, encapsulate, hbytes, Option.map_some]
  apply List.map_congr_left
  intro dest _
  exact sendRaw_encapsulatedBytes hbytes hfits dest

/-- What is sent for a message that fits is the message in its envelope. -/
theorem bytes_of_send_mem_forward {t : UdpTunnel} {now : TimePoint} {type : TunnelMessageType}
    {fromNode : NodeId} {message bytes : List UInt8} {toNode : Option NodeId}
    {dest : UdpEndpoint} (hto : toNode.isSome = type.hasToNode)
    (hfits : encapsulatedSize type message.length ≤ kMaxMessageSize)
    (h : .send dest bytes ∈ (t.forward now type fromNode message toNode).2) :
    bytes = tunnelHeader type fromNode toNode message.length ++ message := by
  by_cases hpassed : t.Suppressed now type fromNode message
  · rw [forward_snd, if_pos hpassed] at h
    cases h
  · rw [forward_snd_of_fits hpassed hto hfits] at h
    obtain ⟨dest', -, heq⟩ := List.mem_map.mp h
    exact (TunnelOutput.send.inj heq).2.symm

theorem exists_messageOf_header {datagram : Datagram} {type : TunnelMessageType}
    {fromNode : NodeId} {toNode : Option NodeId} {message : List UInt8}
    (hto : toNode.isSome = type.hasToNode)
    (hbytes : datagram.bytes = tunnelHeader type fromNode toNode message.length ++ message) :
    ∃ buffer : MessageBuffer, buffer.bytes.take message.length = message ∧
      messageOf datagram = some ⟨type, fromNode, buffer, message.length, toNode⟩ := by
  obtain ⟨buffer, hbuffer, hread⟩ := exists_decapsulate_envelope hto (hbytes ▸ datagram.size_le)
  exact ⟨buffer, hbuffer, by rw [messageOf, hbytes, hread]; rfl⟩

theorem exists_peer_of_mem_recipients {t : UdpTunnel} {type : TunnelMessageType}
    {toNode : Option NodeId} {dest : UdpEndpoint} (h : dest ∈ t.recipients type toNode) :
    ∃ peer ∈ t.mPeers, peer.state = .connected ∧ peer.endpoint = dest := by
  unfold recipients at h
  split at h
  · cases toNode with
    | none => simp at h
    | some node =>
        have hroute : t.route node = some dest := by simpa using h
        unfold route at hroute
        cases hfind : t.remoteNodeIdToPeerIdx.find node with
        | none => simp [hfind] at hroute
        | some idx =>
            cases hget : t.mPeers[idx]? with
            | none => simp [hfind, hget] at hroute
            | some peer =>
                by_cases hstate : peer.state = .connected
                · refine ⟨peer, List.mem_of_getElem? hget, hstate, ?_⟩
                  simpa [hfind, hget, hstate] using hroute
                · simp [hfind, hget, hstate] at hroute
  · simpa [and_assoc] using h

theorem mem_forward_snd {t : UdpTunnel} {now : TimePoint} {type : TunnelMessageType}
    {fromNode : NodeId} {message : List UInt8} {toNode : Option NodeId}
    {out : TunnelOutput} (h : out ∈ (t.forward now type fromNode message toNode).2) :
    ∃ dest ∈ t.recipients type toNode, ∃ bytes, out = .send dest bytes := by
  rw [forward_snd] at h
  split at h
  · simp at h
  · split at h
    · simp at h
    · obtain ⟨dest, hdest, rfl⟩ := List.mem_map.mp h
      exact ⟨dest, hdest, _, rfl⟩

/-! ## One inversion for all events -/

/-- Why a received message is dropped. -/
structure Ignored (t : UdpTunnel) (sender : UdpEndpoint) (message : LocalMessage) :
    Prop where
  hello : message.type = .tunnelHello → t.peer? sender = none ∧
    (sender ∈ t.mRejectedPeers ∨ sender ∈ t.mPendingPeers)
  bye : message.type = .tunnelBye → t.peer? sender = none
  other : message.type ≠ .tunnelHello → message.type ≠ .tunnelBye →
    ∀ idx peer, t.peer? sender = some (idx, peer) → peer.state ≠ .connected

/-- Everything that a step of the tunnel can do. -/
inductive Effect (t : UdpTunnel) :
    TunnelEvent → UdpTunnel → List TunnelOutput → Prop where
  | hello {now sender datagram message idx peer}
      (hmessage : messageOf datagram = some message)
      (htype : message.type = .tunnelHello)
      (hpeer : t.peer? sender = some (idx, peer)) :
      Effect t (.receive now sender datagram)
        (t.setPeer idx { peer with state := .connected, lastSeen := now })
        (if peer.state = .connected then [] else sendHello sender)
  | unknown {now sender datagram message}
      (hmessage : messageOf datagram = some message)
      (htype : message.type = .tunnelHello) (hpeer : t.peer? sender = none)
      (hrejected : sender ∉ t.mRejectedPeers) (hpending : sender ∉ t.mPendingPeers) :
      Effect t (.receive now sender datagram)
        { t with mPendingPeers := insert sender t.mPendingPeers } [.unknownPeer sender]
  | keepalive {now sender datagram message idx peer}
      (hmessage : messageOf datagram = some message)
      (htype : message.type = .tunnelKeepalive)
      (hpeer : t.peer? sender = some (idx, peer)) (hstate : peer.state = .connected) :
      Effect t (.receive now sender datagram)
        (t.setPeer idx { peer with lastSeen := now }) []
  | bye {now sender datagram message idx peer}
      (hmessage : messageOf datagram = some message)
      (htype : message.type = .tunnelBye)
      (hpeer : t.peer? sender = some (idx, peer)) :
      Effect t (.receive now sender datagram)
        { t.setPeer idx { peer with state := .disconnected } with
          remoteNodeIdToPeerIdx := erasePeerNodeIds t.remoteNodeIdToPeerIdx idx } []
  | leave {now sender datagram message idx peer}
      (hmessage : messageOf datagram = some message)
      (htype : message.type = .byebye)
      (hpeer : t.peer? sender = some (idx, peer)) (hstate : peer.state = .connected) :
      Effect t (.receive now sender datagram)
        { t with remoteNodeIdToPeerIdx := t.remoteNodeIdToPeerIdx.erase message.fromNode }
        [.forwardLocally message]
  | data {now sender datagram message idx peer}
      (hmessage : messageOf datagram = some message)
      (hcontrol : message.type.isControl = false) (htype : message.type ≠ .byebye)
      (hpeer : t.peer? sender = some (idx, peer)) (hstate : peer.state = .connected) :
      Effect t (.receive now sender datagram)
        { t with
          remoteNodeIdToPeerIdx := t.remoteNodeIdToPeerIdx.emplace message.fromNode idx }
        [.forwardLocally message]
  | ignored {now sender datagram message}
      (hmessage : messageOf datagram = some message)
      (hignored : t.Ignored sender message) :
      Effect t (.receive now sender datagram) t []
  | maintain {now} (hrun : t.isRunning = true) :
      Effect t (.runMaintenance now) (t.runMaintenance now).1
        (t.mPeers.flatMap (maintenanceOutput now))
  | stopped {now} (hrun : t.isRunning = false) : Effect t (.runMaintenance now) t []
  | add {endpoint} (hnew : t.mEndpointToPeerIdx.find endpoint = none) :
      Effect t (.addPeer endpoint) (t.pushPeer endpoint) (sendHello endpoint)
  | addKnown {endpoint idx} (hknown : t.mEndpointToPeerIdx.find endpoint = some idx) :
      Effect t (.addPeer endpoint) t []
  | remove {endpoint idx} (hknown : t.mEndpointToPeerIdx.find endpoint = some idx) :
      Effect t (.removePeer endpoint)
        { t with
          remoteNodeIdToPeerIdx := erasePeerNodeIds t.remoteNodeIdToPeerIdx idx
          mPeers := t.mPeers.eraseIdx idx
          mEndpointToPeerIdx := rebuildEndpointIndex (t.mPeers.eraseIdx idx) }
        (sendBye endpoint)
  | removeUnknown {endpoint} (hnew : t.mEndpointToPeerIdx.find endpoint = none) :
      Effect t (.removePeer endpoint) t []
  | accept {endpoint} (hnew : t.mEndpointToPeerIdx.find endpoint = none) :
      Effect t (.acceptPeer endpoint)
        ({ t with mPendingPeers := t.mPendingPeers.erase endpoint }.pushPeer endpoint)
        (sendHello endpoint)
  | acceptKnown {endpoint idx} (hknown : t.mEndpointToPeerIdx.find endpoint = some idx) :
      Effect t (.acceptPeer endpoint)
        { t with mPendingPeers := t.mPendingPeers.erase endpoint } []
  | reject {endpoint} :
      Effect t (.rejectPeer endpoint)
        { t with
          mPendingPeers := t.mPendingPeers.erase endpoint
          mRejectedPeers := insert endpoint t.mRejectedPeers } []
  | forward {now type fromNode message toNode out}
      (hout : out = (t.forward now type fromNode message toNode).2) :
      Effect t (.forward now type fromNode message toNode)
        { t with mDedupCache := t.cacheAfter now type fromNode message } out

theorem effect_handleData {t : UdpTunnel} {now : TimePoint} {sender : UdpEndpoint}
    {datagram : Datagram} {message : LocalMessage}
    (hmessage : messageOf datagram = some message)
    (hcontrol : message.type.isControl = false) :
    Effect t (.receive now sender datagram) (t.handleData sender message).1
      (t.handleData sender message).2 := by
  have hhello : message.type ≠ .tunnelHello := by
    rintro h
    simp [h, TunnelMessageType.isControl] at hcontrol
  have hbye : message.type ≠ .tunnelBye := by
    rintro h
    simp [h, TunnelMessageType.isControl] at hcontrol
  unfold handleData
  cases hpeer : t.peer? sender with
  | none =>
      exact .ignored hmessage ⟨fun h ↦ absurd h hhello, fun h ↦ absurd h hbye,
        fun _ _ _ _ h ↦ by simp [hpeer] at h⟩
  | some found =>
      obtain ⟨idx, peer⟩ := found
      by_cases hstate : peer.state = .connected
      · by_cases htype : message.type = .byebye
        · simpa [hstate, htype] using Effect.leave hmessage htype hpeer hstate
        · simpa [hstate, htype] using Effect.data hmessage hcontrol htype hpeer hstate
      · simp only [hstate, if_false]
        refine .ignored hmessage ⟨fun h ↦ absurd h hhello, fun h ↦ absurd h hbye, ?_⟩
        rintro - - idx' peer' h
        obtain ⟨rfl, rfl⟩ := Prod.mk.inj (Option.some.inj (hpeer.symm.trans h))
        exact hstate

theorem effect_receive (t : UdpTunnel) (now : TimePoint) (sender : UdpEndpoint)
    (datagram : Datagram) :
    Effect t (.receive now sender datagram) (t.receive now sender datagram).1
      (t.receive now sender datagram).2 := by
  obtain ⟨message, hmessage, heq⟩ := receive_eq_dispatch t now sender datagram
  rw [heq]
  cases htype : message.type with
  | tunnelHello =>
      simp only [dispatch, htype, handleHello]
      cases hpeer : t.peer? sender with
      | some found => exact .hello hmessage htype hpeer
      | none =>
          simp only [handleUnknownPeer]
          by_cases hrejected : sender ∈ t.mRejectedPeers
          · simp only [hrejected, if_true]
            exact .ignored hmessage ⟨fun _ ↦ ⟨hpeer, Or.inl hrejected⟩,
              fun _ ↦ hpeer, fun h ↦ absurd htype h⟩
          · by_cases hpending : sender ∈ t.mPendingPeers
            · simp only [hrejected, hpending, if_true, if_false]
              exact .ignored hmessage ⟨fun _ ↦ ⟨hpeer, Or.inr hpending⟩,
                fun _ ↦ hpeer, fun h ↦ absurd htype h⟩
            · simp only [hrejected, hpending, if_false]
              exact .unknown hmessage htype hpeer hrejected hpending
  | tunnelKeepalive =>
      simp only [dispatch, htype, handleKeepalive]
      cases hpeer : t.peer? sender with
      | none =>
          exact .ignored hmessage ⟨fun h ↦ by simp [htype] at h,
            fun h ↦ by simp [htype] at h, fun _ _ _ _ h ↦ by simp [hpeer] at h⟩
      | some found =>
          obtain ⟨idx, peer⟩ := found
          by_cases hstate : peer.state = .connected
          · simp only [if_pos hstate]
            exact .keepalive hmessage htype hpeer hstate
          · simp only [if_neg hstate]
            refine .ignored hmessage ⟨fun h ↦ by simp [htype] at h,
              fun h ↦ by simp [htype] at h, ?_⟩
            rintro - - idx' peer' h
            obtain ⟨rfl, rfl⟩ := Prod.mk.inj (Option.some.inj (hpeer.symm.trans h))
            exact hstate
  | tunnelBye =>
      simp only [dispatch, htype, handleBye]
      cases hpeer : t.peer? sender with
      | none =>
          exact .ignored hmessage ⟨fun h ↦ by simp [htype] at h, fun _ ↦ hpeer,
            fun _ h ↦ absurd htype h⟩
      | some found => exact .bye hmessage htype hpeer
  | broadcast | unicast | byebye | measurementPing | measurementPong | other =>
      have hcontrol : message.type.isControl = false := by rw [htype]; rfl
      rw [dispatch_of_data hcontrol]
      exact effect_handleData hmessage hcontrol

theorem effect (t : UdpTunnel) (e : TunnelEvent) :
    Effect t e (next machine t e) (emit machine t e) := by
  cases e with
  | receive now sender datagram => exact effect_receive t now sender datagram
  | runMaintenance now =>
      cases hrun : t.isRunning with
      | true =>
          have h := @Effect.maintain t now hrun
          rwa [← emit_runMaintenance hrun] at h
      | false =>
          have h : t.runMaintenance now = (t, []) := by simp [runMaintenance, hrun]
          simpa [next, emit, machine, h] using @Effect.stopped t now hrun
  | addPeer endpoint =>
      cases hfind : t.mEndpointToPeerIdx.find endpoint with
      | none => simpa [next, emit, machine, addPeer, hfind] using Effect.add hfind
      | some idx => simpa [next, emit, machine, addPeer, hfind] using Effect.addKnown hfind
  | removePeer endpoint =>
      cases hfind : t.mEndpointToPeerIdx.find endpoint with
      | none =>
          simpa [next, emit, machine, removePeer, hfind] using Effect.removeUnknown hfind
      | some idx => simpa [next, emit, machine, removePeer, hfind] using Effect.remove hfind
  | acceptPeer endpoint =>
      cases hfind : t.mEndpointToPeerIdx.find endpoint with
      | none =>
          simpa [next, emit, machine, acceptPeer, addPeer, hfind] using Effect.accept hfind
      | some idx =>
          simpa [next, emit, machine, acceptPeer, addPeer, hfind] using
            Effect.acceptKnown hfind
  | rejectPeer endpoint => exact .reject
  | forward now type fromNode message toNode =>
      have h := @Effect.forward t now type fromNode message toNode _ rfl
      rwa [← forward_fst t now type fromNode message toNode] at h

end UdpTunnel

end LinkExtender
