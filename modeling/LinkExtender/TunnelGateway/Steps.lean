import LinkExtender.TunnelGateway

/-!
# What one step of the gateway does

A step on the local side is one of a few actions, which `lanAction` reads off the
event.  A tunnel message is described table by table.  The invariants of the
following modules unfold no handler.
-/

namespace LinkExtender

namespace TunnelGateway

open EventMachine

variable {link : LinkLibrary}

/-! ## The local side -/

inductive LanAction where
  | ignore
  /-- A state message of `call.fromNode` is accepted. -/
  | announce (sender : UdpEndpoint) (ttl : UInt8) (state : PeerState) (call : ForwardCall)
  /-- A BYEBYE of `call.fromNode` is accepted. -/
  | leave (call : ForwardCall)
  /-- A ping from an unknown socket, which is given the node `call.fromNode`. -/
  | mint (sender : UdpEndpoint) (call : ForwardCall)
  | relay (call : ForwardCall)
  | expireLocal
  | expireRemote

/-- The call of `forward` that an action makes. -/
def LanAction.call? : LanAction → Option ForwardCall
  | .announce _ _ _ call | .leave call | .mint _ call | .relay call => some call
  | .ignore | .expireLocal | .expireRemote => none

def stateAction (link : LinkLibrary) (g : TunnelGateway) (sender : UdpEndpoint)
    (message : List UInt8) (toNode : Option NodeId) : LanAction :=
  let (header, payload) := link.parseMessageHeader message
  if g.ignoreIpV4Message sender || g.hasRemoteNodeSurrogate header.ident then .ignore
  else
    match header.messageType with
    | .kAlive | .kResponse =>
        match link.fromPayload header.ident payload with
        | some state =>
            .announce sender header.ttl state
              ⟨if toNode.isSome then .unicast else .broadcast, header.ident,
                withoutEndpoint link message state.endpoint, toNode⟩
        | none => .ignore
    | .kByeBye => .leave ⟨.byebye, header.ident, message, toNode⟩
    | .other => .ignore

def measurementAction (link : LinkLibrary) (g : TunnelGateway) (drawn : NodeId)
    (sender : UdpEndpoint) (message : List UInt8) (toNode : NodeId) : LanAction :=
  match link.isPing message,
    g.localMeasurementEndpointToNodeId.find (createKeyFromEndpoint link sender) with
  | true, none => .mint sender ⟨.measurementPing, drawn, message, some toNode⟩
  | true, some node => .relay ⟨.measurementPing, node, message, some toNode⟩
  | false, some node => .relay ⟨.measurementPong, node, message, some toNode⟩
  | false, none => .ignore

def lanAction (link : LinkLibrary) (g : TunnelGateway) (now : TimePoint) :
    LanEvent → LanAction
  | .multicast sender datagram => g.stateAction link sender datagram.bytes none
  | .stateSocket node sender datagram =>
      if g.hasRemoteNodeSurrogate node then
        g.stateAction link sender datagram.bytes (some node)
      else .ignore
  | .measurementSocket node sender datagram drawn =>
      if g.hasRemoteNodeSurrogate node then
        g.measurementAction link drawn sender datagram.bytes node
      else .ignore
  | .measurementSurrogateSocket node sender datagram drawn =>
      if (g.mRemoteNodeIdToRemoteMeasurementSurrogate.find node).isSome then
        g.measurementAction link drawn sender datagram.bytes node
      else .ignore
  | .localTimer => if g.mLocalTracker.isDue now then .expireLocal else .ignore
  | .remoteTimer => if g.mRemoteTracker.isDue now then .expireRemote else .ignore

def perform (link : LinkLibrary) (g : TunnelGateway) (now : TimePoint) :
    LanAction → TunnelGateway × List GatewayOutput
  | .ignore => (g, [])
  | .announce sender ttl state call =>
      ({ g with
          localNodeIdToEndpointMap :=
            g.localNodeIdToEndpointMap.insert call.fromNode ⟨sender, state.endpoint⟩
          localMeasurementEndpointToNodeId :=
            g.localMeasurementEndpointToNodeId.insert
              (createKeyFromEndpoint link state.endpoint) call.fromNode
          mLocalTracker := g.mLocalTracker.updateTimeout now call.fromNode ttl },
        [.localObserver (.sawPeer state), .forward call])
  | .leave call =>
      ({ g with
          mLocalTracker := g.mLocalTracker.remove call.fromNode
          localMeasurementEndpointToNodeId :=
            g.localMeasurementEndpointToNodeId.erase (g.measurementKey link call.fromNode)
          localNodeIdToEndpointMap := g.localNodeIdToEndpointMap.erase call.fromNode },
        [.forward call, .localObserver (.peerLeft call.fromNode)])
  | .mint sender call =>
      ({ g with
          localMeasurementEndpointToNodeId :=
            g.localMeasurementEndpointToNodeId.insert (createKeyFromEndpoint link sender)
              call.fromNode
          localNodeIdToEndpointMap :=
            g.localNodeIdToEndpointMap.insert call.fromNode ⟨default, sender⟩ },
        [.forward call])
  | .relay call => (g, [.forward call])
  | .expireLocal => g.pruneLocal link now
  | .expireRemote => g.pruneRemote now

theorem receive_eq_perform (g : TunnelGateway) (now : TimePoint) (sender : UdpEndpoint)
    (message : List UInt8) (toNode : Option NodeId) :
    g.receive link now sender message toNode =
      g.perform link now (g.stateAction link sender message toNode) := by
  rcases hheader : link.parseMessageHeader message with ⟨header, payload⟩
  simp only [receive, stateAction, hheader, handleStateMessage]
  by_cases hsubnet : g.ignoreIpV4Message sender = true
  · simp [hsubnet, perform]
  by_cases hown : g.hasRemoteNodeSurrogate header.ident = true
  · simp [hsubnet, hown, perform]
  simp only [hsubnet, hown, Bool.or_self, Bool.false_eq_true, if_false]
  have hstate : g.receivePeerState link now sender header message payload toNode =
      g.perform link now
        (match link.fromPayload header.ident payload with
        | some state =>
            .announce sender header.ttl state
              ⟨if toNode.isSome then .unicast else .broadcast, header.ident,
                withoutEndpoint link message state.endpoint, toNode⟩
        | none => .ignore) := by
    cases hpayload : link.fromPayload header.ident payload with
    | none => simp [receivePeerState, hpayload, perform]
    | some state =>
        simp [receivePeerState, hpayload, perform, link.ident_fromPayload hpayload]
  cases header.messageType with
  | kAlive => exact hstate
  | kResponse => exact hstate
  | kByeBye => rfl
  | other => rfl

theorem handleMeasurementMessage_eq_perform (g : TunnelGateway) (now : TimePoint)
    (drawn : NodeId) (sender : UdpEndpoint) (message : List UInt8) (toNode : NodeId) :
    g.handleMeasurementMessage link drawn sender message toNode =
      g.perform link now (g.measurementAction link drawn sender message toNode) := by
  unfold handleMeasurementMessage measurementAction
  dsimp only
  cases link.isPing message <;>
    cases g.localMeasurementEndpointToNodeId.find (createKeyFromEndpoint link sender) <;> rfl

theorem lanStep_eq_perform (g : TunnelGateway) (now : TimePoint) (e : LanEvent) :
    g.lanStep link now e = g.perform link now (g.lanAction link now e) := by
  cases e with
  | multicast sender datagram => exact receive_eq_perform ..
  | stateSocket node sender datagram =>
      cases hfind : g.mRemoteNodeIdToRemoteNodeSurrogate.find node with
      | none => simp [lanStep, lanAction, hasRemoteNodeSurrogate, hfind, perform]
      | some surrogate =>
          simp [lanStep, lanAction, hasRemoteNodeSurrogate, hfind, receive_eq_perform]
  | measurementSocket node sender datagram drawn =>
      cases hfind : g.mRemoteNodeIdToRemoteNodeSurrogate.find node with
      | none => simp [lanStep, lanAction, hasRemoteNodeSurrogate, hfind, perform]
      | some surrogate =>
          simp [lanStep, lanAction, hasRemoteNodeSurrogate, hfind,
            handleMeasurementMessage_eq_perform g now]
  | measurementSurrogateSocket node sender datagram drawn =>
      cases hfind : g.mRemoteNodeIdToRemoteMeasurementSurrogate.find node with
      | none => simp [lanStep, lanAction, hfind, perform]
      | some socket =>
          simp [lanStep, lanAction, hfind, handleMeasurementMessage_eq_perform g now]
  | localTimer =>
      by_cases hdue : g.mLocalTracker.isDue now = true <;>
        simp [lanStep, lanAction, hdue, perform]
  | remoteTimer =>
      by_cases hdue : g.mRemoteTracker.isDue now = true <;>
        simp [lanStep, lanAction, hdue, perform]

/-- The datagram that is read as a state message, with its sender and the node it is
meant for. -/
def stateMessage? (g : TunnelGateway) : LanEvent → Option (UdpEndpoint × Datagram × Option NodeId)
  | .multicast sender datagram => some (sender, datagram, none)
  | .stateSocket node sender datagram =>
      if g.hasRemoteNodeSurrogate node then some (sender, datagram, some node) else none
  | _ => none

/-- The datagram that is read as a measurement message, with its sender, the node it
is meant for and the node drawn for its sender. -/
def measurementMessage? (g : TunnelGateway) :
    LanEvent → Option (UdpEndpoint × Datagram × NodeId × NodeId)
  | .measurementSocket node sender datagram drawn =>
      if g.hasRemoteNodeSurrogate node then some (sender, datagram, node, drawn) else none
  | .measurementSurrogateSocket node sender datagram drawn =>
      if (g.mRemoteNodeIdToRemoteMeasurementSurrogate.find node).isSome then
        some (sender, datagram, node, drawn)
      else none
  | _ => none

/-- What an event must be for each of the actions. -/
inductive LanReading (link : LinkLibrary) (g : TunnelGateway) (now : TimePoint) :
    LanEvent → LanAction → Prop
  | ignored {e : LanEvent} : LanReading link g now e .ignore
  | announced {e : LanEvent} {sender : UdpEndpoint} {datagram : Datagram}
      {toNode : Option NodeId} {header : MessageHeader} {payload : List UInt8}
      {state : PeerState} (hmessage : g.stateMessage? e = some (sender, datagram, toNode))
      (hheader : link.parseMessageHeader datagram.bytes = (header, payload))
      (hforeign : g.hasRemoteNodeSurrogate header.ident = false)
      (hstate : link.fromPayload header.ident payload = some state) :
      LanReading link g now e (.announce sender header.ttl state
        ⟨if toNode.isSome then .unicast else .broadcast, header.ident,
          withoutEndpoint link datagram.bytes state.endpoint, toNode⟩)
  | left {e : LanEvent} {sender : UdpEndpoint} {datagram : Datagram}
      {toNode : Option NodeId} {header : MessageHeader} {payload : List UInt8}
      (hmessage : g.stateMessage? e = some (sender, datagram, toNode))
      (hheader : link.parseMessageHeader datagram.bytes = (header, payload))
      (hforeign : g.hasRemoteNodeSurrogate header.ident = false) :
      LanReading link g now e (.leave ⟨.byebye, header.ident, datagram.bytes, toNode⟩)
  | minted {e : LanEvent} {sender : UdpEndpoint} {datagram : Datagram} {toNode drawn : NodeId}
      (hmessage : g.measurementMessage? e = some (sender, datagram, toNode, drawn))
      (hping : link.isPing datagram.bytes = true)
      (hkey : g.localMeasurementEndpointToNodeId.find
        (createKeyFromEndpoint link sender) = none) :
      LanReading link g now e
        (.mint sender ⟨.measurementPing, drawn, datagram.bytes, some toNode⟩)
  | relayed {e : LanEvent} {sender : UdpEndpoint} {datagram : Datagram}
      {toNode drawn node : NodeId}
      (hmessage : g.measurementMessage? e = some (sender, datagram, toNode, drawn))
      (hkey : g.localMeasurementEndpointToNodeId.find
        (createKeyFromEndpoint link sender) = some node) :
      LanReading link g now e (.relay
        ⟨if link.isPing datagram.bytes then .measurementPing else .measurementPong, node,
          datagram.bytes, some toNode⟩)
  | localDue (hdue : g.mLocalTracker.isDue now = true) :
      LanReading link g now .localTimer .expireLocal
  | remoteDue (hdue : g.mRemoteTracker.isDue now = true) :
      LanReading link g now .remoteTimer .expireRemote

theorem LanReading.of_state {g : TunnelGateway} {now : TimePoint} {e : LanEvent}
    {sender : UdpEndpoint} {datagram : Datagram} {toNode : Option NodeId}
    (hmessage : g.stateMessage? e = some (sender, datagram, toNode)) :
    LanReading link g now e (g.stateAction link sender datagram.bytes toNode) := by
  rcases hheader : link.parseMessageHeader datagram.bytes with ⟨header, payload⟩
  unfold stateAction
  rw [hheader]
  dsimp only
  by_cases hheard :
      (g.ignoreIpV4Message sender || g.hasRemoteNodeSurrogate header.ident) = true
  · rw [if_pos hheard]
    exact .ignored
  · rw [if_neg hheard]
    have hforeign : g.hasRemoteNodeSurrogate header.ident = false := by
      simp only [Bool.or_eq_true, not_or, Bool.not_eq_true] at hheard
      exact hheard.2
    have hannounce : LanReading link g now e
        (match link.fromPayload header.ident payload with
        | some state =>
            .announce sender header.ttl state
              ⟨if toNode.isSome then .unicast else .broadcast, header.ident,
                withoutEndpoint link datagram.bytes state.endpoint, toNode⟩
        | none => .ignore) := by
      cases hstate : link.fromPayload header.ident payload with
      | none => exact .ignored
      | some state => exact .announced hmessage hheader hforeign hstate
    cases header.messageType with
    | kAlive | kResponse => exact hannounce
    | kByeBye => exact .left hmessage hheader hforeign
    | other => exact .ignored

theorem LanReading.of_measurement {g : TunnelGateway} {now : TimePoint} {e : LanEvent}
    {sender : UdpEndpoint} {datagram : Datagram} {toNode drawn : NodeId}
    (hmessage : g.measurementMessage? e = some (sender, datagram, toNode, drawn)) :
    LanReading link g now e (g.measurementAction link drawn sender datagram.bytes toNode) := by
  have hrelayed := @LanReading.relayed link g now e sender datagram toNode drawn
  have hminted := @LanReading.minted link g now e sender datagram toNode drawn hmessage
  unfold measurementAction
  cases hping : link.isPing datagram.bytes with
  | true =>
      cases hkey : g.localMeasurementEndpointToNodeId.find
          (createKeyFromEndpoint link sender) with
      | none => exact hminted hping hkey
      | some node =>
          have h := hrelayed hmessage hkey
          rwa [hping, if_pos rfl] at h
  | false =>
      cases hkey : g.localMeasurementEndpointToNodeId.find
          (createKeyFromEndpoint link sender) with
      | none => exact .ignored
      | some node =>
          have h := hrelayed hmessage hkey
          rwa [hping, if_neg Bool.false_ne_true] at h

theorem lanReading (link : LinkLibrary) (g : TunnelGateway) (now : TimePoint) (e : LanEvent) :
    LanReading link g now e (g.lanAction link now e) := by
  cases e with
  | multicast sender datagram => exact .of_state rfl
  | stateSocket node sender datagram =>
      simp only [lanAction]
      split
      · exact .of_state (if_pos ‹_›)
      · exact .ignored
  | measurementSocket node sender datagram drawn =>
      simp only [lanAction]
      split
      · exact .of_measurement (if_pos ‹_›)
      · exact .ignored
  | measurementSurrogateSocket node sender datagram drawn =>
      simp only [lanAction]
      split
      · exact .of_measurement (if_pos ‹_›)
      · exact .ignored
  | localTimer =>
      simp only [lanAction]
      split
      · exact .localDue ‹_›
      · exact .ignored
  | remoteTimer =>
      simp only [lanAction]
      split
      · exact .remoteDue ‹_›
      · exact .ignored

theorem next_lan (g : TunnelGateway) (now : TimePoint) (e : LanEvent) :
    next (machine link) g (.lan now e) = (g.perform link now (g.lanAction link now e)).1 :=
  congrArg Prod.fst (lanStep_eq_perform g now e)

theorem emit_lan (g : TunnelGateway) (now : TimePoint) (e : LanEvent) :
    emit (machine link) g (.lan now e) = (g.perform link now (g.lanAction link now e)).2 :=
  congrArg Prod.snd (lanStep_eq_perform g now e)

/-- The call of `forward` is all that an action hands to the tunnel. -/
theorem forward_mem_perform {g : TunnelGateway} {now : TimePoint} {a : LanAction}
    {call : ForwardCall} : .forward call ∈ (g.perform link now a).2 ↔ a.call? = some call := by
  cases a with
  | expireLocal => simp [perform, pruneLocal, LanAction.call?]
  | expireRemote => simp [perform, pruneRemote, LanAction.call?]
  | _ => simp [perform, LanAction.call?, eq_comm]

theorem forward_mem_emit_lan {g : TunnelGateway} {now : TimePoint} {e : LanEvent}
    {call : ForwardCall} : .forward call ∈ emit (machine link) g (.lan now e) ↔
      (g.lanAction link now e).call? = some call := by
  rw [emit_lan, forward_mem_perform]

theorem next_tunnel (g : TunnelGateway) (io : LocalIo) (message : LocalMessage) :
    next (machine link) g (.tunnel io message) =
      (g.forwardMessageLocally link io message).1 := rfl

/-! ## Expiry -/

section Expiry

variable (g : TunnelGateway) (now : TimePoint)

theorem onRemotePeerTimedOut_foldl (ids : List NodeId) :
    ids.foldl onRemotePeerTimedOut g =
      { g with
        mRemoteNodeIdToRemoteNodeSurrogate :=
          ids.foldl PartialMap.erase g.mRemoteNodeIdToRemoteNodeSurrogate
        mRemoteNodeIdToRemoteMeasurementSurrogate :=
          ids.foldl PartialMap.erase g.mRemoteNodeIdToRemoteMeasurementSurrogate } := by
  induction ids generalizing g with
  | nil => rfl
  | cons id ids ih =>
      rw [List.foldl_cons, ih]
      rfl

theorem find_nodeSurrogate_pruneRemote (node : NodeId) :
    (g.pruneRemote now).1.mRemoteNodeIdToRemoteNodeSurrogate.find node =
      if node ∈ g.mRemoteTracker.expired now then none
      else g.mRemoteNodeIdToRemoteNodeSurrogate.find node := by
  simp only [pruneRemote, onRemotePeerTimedOut_foldl]
  exact PartialMap.find_foldl_erase ..

theorem find_measurementSurrogate_pruneRemote (node : NodeId) :
    (g.pruneRemote now).1.mRemoteNodeIdToRemoteMeasurementSurrogate.find node =
      if node ∈ g.mRemoteTracker.expired now then none
      else g.mRemoteNodeIdToRemoteMeasurementSurrogate.find node := by
  simp only [pruneRemote, onRemotePeerTimedOut_foldl]
  exact PartialMap.find_foldl_erase ..

@[simp] theorem mRemoteTracker_pruneRemote :
    (g.pruneRemote now).1.mRemoteTracker = g.mRemoteTracker.prune now := rfl

theorem pruneRemote_local :
    (g.pruneRemote now).1.mLocalTracker = g.mLocalTracker ∧
      (g.pruneRemote now).1.localNodeIdToEndpointMap = g.localNodeIdToEndpointMap ∧
      (g.pruneRemote now).1.localMeasurementEndpointToNodeId =
        g.localMeasurementEndpointToNodeId := by
  simp only [pruneRemote, onRemotePeerTimedOut_foldl, and_self]

theorem onLocalPeerTimedOut_remote (ids : List NodeId) :
    (ids.foldl (onLocalPeerTimedOut link) g).mRemoteTracker = g.mRemoteTracker ∧
      (ids.foldl (onLocalPeerTimedOut link) g).mRemoteNodeIdToRemoteNodeSurrogate =
        g.mRemoteNodeIdToRemoteNodeSurrogate ∧
      (ids.foldl (onLocalPeerTimedOut link) g).mRemoteNodeIdToRemoteMeasurementSurrogate =
        g.mRemoteNodeIdToRemoteMeasurementSurrogate := by
  induction ids generalizing g with
  | nil => exact ⟨rfl, rfl, rfl⟩
  | cons id ids ih =>
      rw [List.foldl_cons]
      obtain ⟨htracker, hnode, hmeasurement⟩ := ih (g.onLocalPeerTimedOut link id)
      rw [htracker, hnode, hmeasurement]
      unfold onLocalPeerTimedOut
      cases g.localNodeIdToEndpointMap.find id <;> exact ⟨rfl, rfl, rfl⟩

theorem find_endpoints_onLocalPeerTimedOut (id node : NodeId) :
    (g.onLocalPeerTimedOut link id).localNodeIdToEndpointMap.find node =
      if node = id then none else g.localNodeIdToEndpointMap.find node := by
  unfold onLocalPeerTimedOut
  cases hfind : g.localNodeIdToEndpointMap.find id with
  | some endpoints => exact PartialMap.find_erase ..
  | none =>
      by_cases hnode : node = id
      · simp [hnode, hfind]
      · simp [hnode]

/-- The key of the endpoints recorded for `id`, if there are any. -/
def recordedKey (link : LinkLibrary) (g : TunnelGateway) (id : NodeId) : Option String :=
  (g.localNodeIdToEndpointMap.find id).map
    (fun endpoints ↦ createKeyFromEndpoint link endpoints.measurementEndpoint)

theorem find_key_onLocalPeerTimedOut (id : NodeId) (key : String) :
    (g.onLocalPeerTimedOut link id).localMeasurementEndpointToNodeId.find key =
      if g.recordedKey link id = some key then none
      else g.localMeasurementEndpointToNodeId.find key := by
  unfold onLocalPeerTimedOut recordedKey
  cases hfind : g.localNodeIdToEndpointMap.find id with
  | none => simp
  | some endpoints =>
      simp only [PartialMap.find_erase, Option.map_some, Option.some.injEq, eq_comm]

theorem find_endpoints_foldl (ids : List NodeId) (node : NodeId) :
    (ids.foldl (onLocalPeerTimedOut link) g).localNodeIdToEndpointMap.find node =
      if node ∈ ids then none else g.localNodeIdToEndpointMap.find node := by
  induction ids generalizing g with
  | nil => simp
  | cons id ids ih =>
      rw [List.foldl_cons, ih, find_endpoints_onLocalPeerTimedOut]
      by_cases hids : node ∈ ids <;> by_cases hnode : node = id <;> simp [hids, hnode]

theorem find_key_foldl (ids : List NodeId) (key : String) :
    (ids.foldl (onLocalPeerTimedOut link) g).localMeasurementEndpointToNodeId.find key =
      if ∃ id ∈ ids, g.recordedKey link id = some key then none
      else g.localMeasurementEndpointToNodeId.find key := by
  induction ids generalizing g with
  | nil => simp
  | cons id ids ih =>
      rw [List.foldl_cons, ih, find_key_onLocalPeerTimedOut]
      by_cases hid : g.recordedKey link id = some key
      · simp [hid]
      · have hrest : (∃ i ∈ ids, (g.onLocalPeerTimedOut link id).recordedKey link i =
            some key) ↔ ∃ i ∈ ids, g.recordedKey link i = some key := by
          apply exists_congr
          intro i
          apply and_congr_right
          intro _
          rw [recordedKey, find_endpoints_onLocalPeerTimedOut]
          by_cases hi : i = id
          · subst hi
            simp [hid]
          · simp [hi, recordedKey]
        simp [hid, hrest]

end Expiry

theorem localInterfaceAddress_foldl (g : TunnelGateway) (ids : List NodeId) :
    (ids.foldl (onLocalPeerTimedOut link) g).localInterfaceAddress =
      g.localInterfaceAddress := by
  induction ids generalizing g with
  | nil => rfl
  | cons id ids ih =>
      rw [List.foldl_cons, ih]
      unfold onLocalPeerTimedOut
      cases g.localNodeIdToEndpointMap.find id <;> rfl

theorem localInterfaceAddress_perform (g : TunnelGateway) (now : TimePoint) (a : LanAction) :
    (g.perform link now a).1.localInterfaceAddress = g.localInterfaceAddress := by
  cases a with
  | expireLocal => exact localInterfaceAddress_foldl ..
  | expireRemote => simp only [perform, pruneRemote, onRemotePeerTimedOut_foldl]
  | _ => rfl

/-- An entry of `localNodeIdToEndpointMap` was there before, or is the one that the
action writes. -/
theorem find_endpoints_perform {g : TunnelGateway} {now : TimePoint} {a : LanAction}
    {node : NodeId} {endpoints : LocalNodeEndpoints}
    (h : (g.perform link now a).1.localNodeIdToEndpointMap.find node = some endpoints) :
    g.localNodeIdToEndpointMap.find node = some endpoints ∨
      (∃ sender ttl state call, a = .announce sender ttl state call ∧ node = call.fromNode ∧
        endpoints = ⟨sender, state.endpoint⟩) ∨
      ∃ sender call, a = .mint sender call ∧ node = call.fromNode ∧
        endpoints = ⟨default, sender⟩ := by
  cases a with
  | ignore | relay => exact Or.inl h
  | announce sender ttl state call =>
      simp only [perform, PartialMap.find_insert] at h
      split at h
      · rename_i hnode
        exact Or.inr (Or.inl ⟨sender, ttl, state, call, rfl, hnode, (Option.some.inj h).symm⟩)
      · exact Or.inl h
  | mint sender call =>
      simp only [perform, PartialMap.find_insert] at h
      split at h
      · rename_i hnode
        exact Or.inr (Or.inr ⟨sender, call, rfl, hnode, (Option.some.inj h).symm⟩)
      · exact Or.inl h
  | leave call => exact Or.inl ((PartialMap.find_erase_eq_some ..).mp h).2
  | expireLocal =>
      simp only [perform, pruneLocal, find_endpoints_foldl] at h
      split at h
      · cases h
      · exact Or.inl h
  | expireRemote =>
      rw [perform, (pruneRemote_local g now).2.1] at h
      exact Or.inl h

/-- And so was an entry of `localMeasurementEndpointToNodeId`. -/
theorem find_key_perform {g : TunnelGateway} {now : TimePoint} {a : LanAction} {key : String}
    {node : NodeId}
    (h : (g.perform link now a).1.localMeasurementEndpointToNodeId.find key = some node) :
    g.localMeasurementEndpointToNodeId.find key = some node ∨
      (∃ sender ttl state call, a = .announce sender ttl state call ∧ node = call.fromNode ∧
        key = createKeyFromEndpoint link state.endpoint) ∨
      ∃ sender call, a = .mint sender call ∧ node = call.fromNode ∧
        key = createKeyFromEndpoint link sender := by
  cases a with
  | ignore | relay => exact Or.inl h
  | announce sender ttl state call =>
      simp only [perform, PartialMap.find_insert] at h
      split at h
      · rename_i hkey
        exact Or.inr (Or.inl ⟨sender, ttl, state, call, rfl, (Option.some.inj h).symm, hkey⟩)
      · exact Or.inl h
  | mint sender call =>
      simp only [perform, PartialMap.find_insert] at h
      split at h
      · rename_i hkey
        exact Or.inr (Or.inr ⟨sender, call, rfl, (Option.some.inj h).symm, hkey⟩)
      · exact Or.inl h
  | leave call => exact Or.inl ((PartialMap.find_erase_eq_some ..).mp h).2
  | expireLocal =>
      simp only [perform, pruneLocal, find_key_foldl] at h
      split at h
      · cases h
      · exact Or.inl h
  | expireRemote =>
      rw [perform, (pruneRemote_local g now).2.2] at h
      exact Or.inl h

/-- Only the remote timer touches the remote side. -/
theorem perform_remote (g : TunnelGateway) (now : TimePoint) {a : LanAction}
    (h : a ≠ .expireRemote) :
    (g.perform link now a).1.mRemoteTracker = g.mRemoteTracker ∧
      (g.perform link now a).1.mRemoteNodeIdToRemoteNodeSurrogate =
        g.mRemoteNodeIdToRemoteNodeSurrogate ∧
      (g.perform link now a).1.mRemoteNodeIdToRemoteMeasurementSurrogate =
        g.mRemoteNodeIdToRemoteMeasurementSurrogate := by
  cases a with
  | expireRemote => exact absurd rfl h
  | expireLocal => exact onLocalPeerTimedOut_remote ..
  | _ => exact ⟨rfl, rfl, rfl⟩

/-! ## The tunnel side -/

section Tunnel

variable {g : TunnelGateway} {io : LocalIo} {message : LocalMessage}

def destination (link : LinkLibrary) (g : TunnelGateway) (message : LocalMessage) :
    Option UdpEndpoint :=
  match message.type, message.toNode.bind g.localNodeIdToEndpointMap.find with
  | .byebye, _ | .broadcast, _ => some (g.getBroadcastEndpoint link)
  | _, none => none
  | .measurementPing, some target | .measurementPong, some target =>
      some target.measurementEndpoint
  | _, some target => some target.stateEndpoint

def withNodeSurrogate (g : TunnelGateway) (node : NodeId)
    (surrogate : RemoteNodeSurrogate) : TunnelGateway :=
  { g with
    mRemoteNodeIdToRemoteNodeSurrogate :=
      g.mRemoteNodeIdToRemoteNodeSurrogate.emplace node surrogate }

def withMeasurementSurrogate (g : TunnelGateway) (node : NodeId) (socket : UdpEndpoint) :
    TunnelGateway :=
  { g with
    mRemoteNodeIdToRemoteMeasurementSurrogate :=
      g.mRemoteNodeIdToRemoteMeasurementSurrogate.emplace node socket }

def nodeSurrogate (g : TunnelGateway) (io : LocalIo) (node : NodeId) :
    Option RemoteNodeSurrogate :=
  (g.mRemoteNodeIdToRemoteNodeSurrogate.find node).or io.nodeSockets

def measurementSurrogate (g : TunnelGateway) (io : LocalIo) (node : NodeId) :
    Option UdpEndpoint :=
  (g.mRemoteNodeIdToRemoteMeasurementSurrogate.find node).or io.measurementSocket

theorem getSocketForRemoteNode_eq (node : NodeId) (getMeasurementSocket : Bool) :
    g.getSocketForRemoteNode io node getMeasurementSocket =
      match g.nodeSurrogate io node with
      | some s => (g.withNodeSurrogate node s,
          some (if getMeasurementSocket then s.measurementSocket else s.stateSocket))
      | none => (g, none) := by
  unfold getSocketForRemoteNode nodeSurrogate withNodeSurrogate PartialMap.emplace
  cases hfind : g.mRemoteNodeIdToRemoteNodeSurrogate.find node with
  | some s => simp
  | none => cases hio : io.nodeSockets <;> simp

theorem getSocketForRemoteMeasurement_eq (node : NodeId) :
    g.getSocketForRemoteMeasurement io node =
      match g.measurementSurrogate io node with
      | some socket => (g.withMeasurementSurrogate node socket, some socket)
      | none => (g, none) := by
  unfold getSocketForRemoteMeasurement measurementSurrogate withMeasurementSurrogate
    PartialMap.emplace
  cases hfind : g.mRemoteNodeIdToRemoteMeasurementSurrogate.find node with
  | some s => simp
  | none => cases hio : io.measurementSocket <;> simp

theorem nodeSurrogate_withNodeSurrogate {node : NodeId} {s : RemoteNodeSurrogate}
    (h : g.nodeSurrogate io node = some s) :
    (g.withNodeSurrogate node s).mRemoteNodeIdToRemoteNodeSurrogate.find node = some s := by
  unfold nodeSurrogate at h
  simp only [withNodeSurrogate, PartialMap.find_emplace, true_and]
  cases hfind : g.mRemoteNodeIdToRemoteNodeSurrogate.find node with
  | none => simp
  | some s' => simpa [hfind] using h

theorem resolveDestination_eq :
    g.resolveDestination link io message.type message.fromNode message.toNode =
      match g.destination link message with
      | none => (g, none)
      | some dest => routeVia dest
          (if message.type = .measurementPing then
            g.getSocketForRemoteMeasurement io message.fromNode
          else g.getSocketForRemoteNode io message.fromNode
            (message.type = .measurementPong)) := by
  unfold resolveDestination destination
  cases message.type <;>
    cases message.toNode.bind g.localNodeIdToEndpointMap.find <;> simp

/-- A message that renews the pending entry of its sender. -/
def announces (link : LinkLibrary) (message : LocalMessage) : Bool :=
  (message.type = .broadcast || message.type = .unicast) &&
    (link.fromPayload message.fromNode
      (link.parseMessageHeader (message.buffer.bytes.take message.size)).2).isSome

theorem type_ne_byebye_of_announces (h : announces link message = true) :
    message.type ≠ .byebye := by
  intro htype
  simp [announces, htype] at h

def observedTracker (link : LinkLibrary) (tracker : PeerTracker) (now : TimePoint)
    (message : LocalMessage) : PeerTracker :=
  if announces link message then
    tracker.updateTimeout now message.fromNode
      (link.parseMessageHeader (message.buffer.bytes.take message.size)).1.ttl
  else if message.type = .byebye then tracker.remove message.fromNode
  else tracker

theorem observe_fst (now : TimePoint) :
    (g.observe link now message).1 =
      { g with
        mRemoteTracker := observedTracker link g.mRemoteTracker now message } := by
  have hstate (htype : message.type = .broadcast ∨ message.type = .unicast) :
      (g.observeRemotePeerState link now message.fromNode
        (message.buffer.bytes.take message.size)).1 =
      { g with
        mRemoteTracker := observedTracker link g.mRemoteTracker now message } := by
    have hbyebye : message.type ≠ .byebye := by
      rintro hbyebye
      simp [hbyebye] at htype
    cases hpayload : link.fromPayload message.fromNode
        (link.parseMessageHeader (message.buffer.bytes.take message.size)).2 with
    | none => simp [observeRemotePeerState, observedTracker, announces, hpayload, hbyebye]
    | some state =>
        simp [observeRemotePeerState, observedTracker, announces, hpayload, htype,
          link.ident_fromPayload hpayload]
  cases htype : message.type with
  | broadcast => simpa only [observe, htype] using hstate (Or.inl htype)
  | unicast => simpa only [observe, htype] using hstate (Or.inr htype)
  | _ => simp [observe, observedTracker, announces, htype, onRemotePeerLeft]

theorem fromNode_mem_observedTracker {tracker : PeerTracker} {now : TimePoint} :
    message.fromNode ∈ (observedTracker link tracker now message).ids ↔
      message.type ≠ .byebye ∧
        (message.fromNode ∈ tracker.ids ∨ announces link message = true) := by
  by_cases hannounces : announces link message = true
  · simp [observedTracker, hannounces, type_ne_byebye_of_announces hannounces]
  · by_cases htype : message.type = .byebye <;> simp [observedTracker, hannounces, htype]

theorem mem_observedTracker_of_ne {tracker : PeerTracker} {now : TimePoint}
    {node : NodeId} (h : node ≠ message.fromNode) :
    node ∈ (observedTracker link tracker now message).ids ↔ node ∈ tracker.ids := by
  unfold observedTracker
  split
  · simp [h]
  · split <;> simp [h]

theorem isSome_localEndpoint_getBroadcastEndpoint (link : LinkLibrary) (g : TunnelGateway) :
    (g.localEndpoint (g.getBroadcastEndpoint link)).isSome = true := by
  unfold localEndpoint getBroadcastEndpoint
  cases g.localInterfaceAddress with
  | v4 address =>
      have hv4 := link.isV4_multicastEndpointV4
      cases hmulticast : link.multicastEndpointV4.address with
      | v4 a => simp
      | v6 bytes scopeId => simp [hmulticast, IpAddress.isV4] at hv4
  | v6 bytes scopeId =>
      cases (link.multicastEndpointV6 scopeId).address <;> rfl

theorem type_ne_byebye_of_unroutable {dest : UdpEndpoint}
    (hdest : g.destination link message = some dest) (hlocal : g.localEndpoint dest = none) :
    message.type ≠ .byebye := by
  intro htype
  have hbroadcast := isSome_localEndpoint_getBroadcastEndpoint link g
  simp only [destination, htype, Option.some.injEq] at hdest
  rw [hdest, hlocal] at hbroadcast
  cases hbroadcast

/-- What goes out behind a node's surrogate: the buffer and the size in it. -/
def outgoing (link : LinkLibrary) (surrogate : RemoteNodeSurrogate)
    (message : LocalMessage) : MessageBuffer × ℕ :=
  let payload := link.endpointPayload surrogate.measurementSocket
  if isSentWhole message.type = false ∧ message.size + payload.length < kMaxMessageSize then
    (message.buffer.write message.size payload, message.size + payload.length)
  else (message.buffer, message.size)

/-- The ways in which `forwardMessageLocally` can end, each with the new state,
the buffer for the next gateway and the outputs. -/
inductive Delivery (link : LinkLibrary) (g : TunnelGateway) (io : LocalIo)
    (message : LocalMessage) :
    TunnelGateway → MessageBuffer → List GatewayOutput → Prop
  | unaddressed (hdest : g.destination link message = none) :
      Delivery link g io message g message.buffer []
  | pingUnopened {dest : UdpEndpoint} (htype : message.type = .measurementPing)
      (hdest : g.destination link message = some dest)
      (hsocket : g.measurementSurrogate io message.fromNode = none) :
      Delivery link g io message g message.buffer []
  | ping {dest socket : UdpEndpoint} (htype : message.type = .measurementPing)
      (hdest : g.destination link message = some dest)
      (hsocket : g.measurementSurrogate io message.fromNode = some socket) :
      Delivery link g io message (g.withMeasurementSurrogate message.fromNode socket)
        message.buffer
        ((g.localEndpoint dest).elim []
          (fun e ↦ sendUdpMessage io ⟨socket, e⟩ message.buffer message.size))
  | unopened {dest : UdpEndpoint} (htype : message.type ≠ .measurementPing)
      (hdest : g.destination link message = some dest)
      (hsurrogate : g.nodeSurrogate io message.fromNode = none) :
      Delivery link g io message g message.buffer []
  | unroutable {dest : UdpEndpoint} {s : RemoteNodeSurrogate}
      (htype : message.type ≠ .measurementPing)
      (hdest : g.destination link message = some dest)
      (hsurrogate : g.nodeSurrogate io message.fromNode = some s)
      (hlocal : g.localEndpoint dest = none) :
      Delivery link g io message (g.withNodeSurrogate message.fromNode s) message.buffer []
  | delivered {dest e : UdpEndpoint} {s : RemoteNodeSurrogate}
      (htype : message.type ≠ .measurementPing)
      (hdest : g.destination link message = some dest)
      (hsurrogate : g.nodeSurrogate io message.fromNode = some s)
      (hlocal : g.localEndpoint dest = some e) :
      Delivery link g io message
        ((g.withNodeSurrogate message.fromNode s).observe link io.now message).1
        (outgoing link s message).1
        (((g.withNodeSurrogate message.fromNode s).observe link io.now message).2 ++
          sendUdpMessage io
            ⟨if message.type = .measurementPong then s.measurementSocket else s.stateSocket, e⟩
            (outgoing link s message).1 (outgoing link s message).2)

theorem appendMeasurementEndpoint_of_find {node : NodeId} {s : RemoteNodeSurrogate}
    (h : g.mRemoteNodeIdToRemoteNodeSurrogate.find node = some s) (buffer : MessageBuffer)
    (size : ℕ) :
    g.appendMeasurementEndpoint link io node buffer size =
      (g, some
        (if size + (link.endpointPayload s.measurementSocket).length < kMaxMessageSize then
          (buffer.write size (link.endpointPayload s.measurementSocket),
            size + (link.endpointPayload s.measurementSocket).length)
        else (buffer, size))) := by
  simp only [appendMeasurementEndpoint, getSocketForRemoteNode, h, if_true]
  split <;> rfl

theorem delivery (link : LinkLibrary) (g : TunnelGateway) (io : LocalIo)
    (message : LocalMessage) :
    Delivery link g io message (g.forwardMessageLocally link io message).1
      (g.forwardMessageLocally link io message).2.1
      (g.forwardMessageLocally link io message).2.2 := by
  have hresolve := @resolveDestination_eq link g io message
  cases hdest : g.destination link message with
  | none =>
      simp only [hdest] at hresolve
      simp only [forwardMessageLocally, hresolve]
      exact .unaddressed hdest
  | some dest =>
      by_cases htype : message.type = .measurementPing
      · simp only [hdest, htype, if_true, getSocketForRemoteMeasurement_eq] at hresolve
        cases hsocket : g.measurementSurrogate io message.fromNode with
        | none =>
            simp only [hsocket, routeVia] at hresolve
            simp only [forwardMessageLocally, htype, hresolve]
            exact .pingUnopened htype hdest hsocket
        | some socket =>
            simp only [hsocket, routeVia] at hresolve
            have hping := @Delivery.ping link g io message dest socket htype hdest hsocket
            cases hlocal : g.localEndpoint dest with
            | none =>
                have hlocal' : (g.withMeasurementSurrogate message.fromNode socket).localEndpoint
                    dest = none := hlocal
                simp only [hlocal, Option.elim_none] at hping
                simpa only [forwardMessageLocally, htype, hresolve, hlocal',
                  Option.map_none] using hping
            | some e =>
                have hlocal' : (g.withMeasurementSurrogate message.fromNode socket).localEndpoint
                    dest = some e := hlocal
                simp only [hlocal, Option.elim_some] at hping
                simpa only [forwardMessageLocally, htype, hresolve, hlocal', Option.map_some,
                  observe, isSentWhole, if_true, List.nil_append] using hping
      · simp only [hdest, htype, if_false, getSocketForRemoteNode_eq] at hresolve
        cases hsurrogate : g.nodeSurrogate io message.fromNode with
        | none =>
            simp only [hsurrogate, routeVia] at hresolve
            simp only [forwardMessageLocally, hresolve]
            exact .unopened htype hdest hsurrogate
        | some s =>
            simp only [hsurrogate, routeVia] at hresolve
            cases hlocal : g.localEndpoint dest with
            | none =>
                have hlocal' : (g.withNodeSurrogate message.fromNode s).localEndpoint
                    dest = none := hlocal
                simp only [forwardMessageLocally, hresolve, hlocal', Option.map_none]
                exact .unroutable htype hdest hsurrogate hlocal
            | some e =>
                have hlocal' : (g.withNodeSurrogate message.fromNode s).localEndpoint
                    dest = some e := hlocal
                have hdelivered :=
                  @Delivery.delivered link g io message dest e s htype hdest hsurrogate hlocal
                have hfind : ((g.withNodeSurrogate message.fromNode s).observe link io.now
                    message).1.mRemoteNodeIdToRemoteNodeSurrogate.find message.fromNode =
                      some s := by
                  rw [observe_fst]
                  exact nodeSurrogate_withNodeSurrogate hsurrogate
                by_cases hwhole : isSentWhole message.type = true
                · simp only [outgoing, hwhole, Bool.true_eq_false, false_and,
                    if_false] at hdelivered
                  simpa only [forwardMessageLocally, hresolve, hlocal', Option.map_some,
                    hwhole, if_true, decide_eq_true_eq] using hdelivered
                · have hpart : isSentWhole message.type = false := by simpa using hwhole
                  simp only [outgoing, hpart, true_and] at hdelivered
                  simpa only [forwardMessageLocally, hresolve, hlocal', Option.map_some,
                    hpart, Bool.false_eq_true, if_false, decide_eq_true_eq,
                    appendMeasurementEndpoint_of_find hfind] using hdelivered

theorem forwardMessageLocally_local (link : LinkLibrary) (g : TunnelGateway) (io : LocalIo)
    (message : LocalMessage) :
    (g.forwardMessageLocally link io message).1.localInterfaceAddress =
        g.localInterfaceAddress ∧
      (g.forwardMessageLocally link io message).1.mLocalTracker = g.mLocalTracker ∧
      (g.forwardMessageLocally link io message).1.localNodeIdToEndpointMap =
        g.localNodeIdToEndpointMap ∧
      (g.forwardMessageLocally link io message).1.localMeasurementEndpointToNodeId =
        g.localMeasurementEndpointToNodeId := by
  have hdelivery := delivery link g io message
  generalize (g.forwardMessageLocally link io message).1 = g' at hdelivery ⊢
  generalize (g.forwardMessageLocally link io message).2.1 = buffer at hdelivery
  generalize (g.forwardMessageLocally link io message).2.2 = out at hdelivery
  cases hdelivery with
  | delivered htype hdest hsurrogate hlocal =>
      rw [observe_fst]
      exact ⟨rfl, rfl, rfl, rfl⟩
  | _ => exact ⟨rfl, rfl, rfl, rfl⟩

/-! ## The shared buffer -/

/-- The bytes up to `messageEnd` are as before when the next gateway reads them. -/
theorem take_buffer_forwardMessageLocally (link : LinkLibrary) (g : TunnelGateway)
    (io : LocalIo) (message : LocalMessage) :
    (g.forwardMessageLocally link io message).2.1.bytes.take message.size =
      message.buffer.bytes.take message.size := by
  have hdelivery := delivery link g io message
  generalize (g.forwardMessageLocally link io message).1 = g' at hdelivery
  generalize (g.forwardMessageLocally link io message).2.1 = buffer at hdelivery ⊢
  generalize (g.forwardMessageLocally link io message).2.2 = out at hdelivery
  cases hdelivery with
  | delivered htype hdest hsurrogate hlocal =>
      unfold outgoing
      dsimp only
      split
      · next hfits => exact MessageBuffer.take_bytes_write hfits.2.le le_rfl
      · rfl
  | _ => rfl

/-- What lies behind `messageEnd` does not matter. -/
theorem forwardMessageLocally_congr {buffer : MessageBuffer}
    (hsame : buffer.bytes.take message.size = message.buffer.bytes.take message.size) :
    (g.forwardMessageLocally link io { message with buffer := buffer }).1 =
        (g.forwardMessageLocally link io message).1 ∧
      (g.forwardMessageLocally link io { message with buffer := buffer }).2.2 =
        (g.forwardMessageLocally link io message).2.2 := by
  simp only [forwardMessageLocally]
  rcases g.resolveDestination link io message.type message.fromNode message.toNode with
    ⟨g', routing⟩
  cases routing with
  | none => exact ⟨rfl, rfl⟩
  | some routing =>
      have hobserve : g'.observe link io.now { message with buffer := buffer } =
          g'.observe link io.now message := by
        unfold observe
        simp only [hsame]
      by_cases hwhole : isSentWhole message.type = true
      · simp [hobserve, hwhole, sendUdpMessage, hsame]
      · simp only [hobserve, hwhole, Bool.false_eq_true, if_false, appendMeasurementEndpoint]
        rcases (g'.observe link io.now message).1.getSocketForRemoteNode io message.fromNode
          true with ⟨g'', socket⟩
        cases socket with
        | none => exact ⟨rfl, rfl⟩
        | some socket =>
            by_cases hfits :
                message.size + (link.endpointPayload socket).length < kMaxMessageSize
            · simp only [hfits, if_true, sendUdpMessage,
                MessageBuffer.take_bytes_write_end hfits.le, hsame, and_self]
            · simp only [hfits, if_false, sendUdpMessage, hsame, and_self]

end Tunnel

end TunnelGateway

end LinkExtender
