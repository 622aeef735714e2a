import LinkExtender.TunnelGateway.Steps

/-!
# Measurement tables and the trackers

`handle_measurement_message` makes up a node for every socket that it does not
know.  Such nodes are recorded here as minted.  Their table entries are erased on
BYEBYE and on expiry only, and so are the measurement surrogates of the far side.
-/

namespace LinkExtender

namespace TunnelGateway

open EventMachine

variable {link : LinkLibrary} {g : TunnelGateway} {minted : List NodeId}

/-- The node that the gateway makes up when it reads an event. -/
def mintedBy (link : LinkLibrary) (g : TunnelGateway) : GatewayEvent → Option NodeId
  | .lan now e =>
      match g.lanAction link now e with
      | .mint _ call => some call.fromNode
      | _ => none
  | .tunnel _ _ => none

def noteMinted (link : LinkLibrary) (minted : List NodeId) (g : TunnelGateway)
    (e : GatewayEvent) : List NodeId :=
  (g.mintedBy link e).toList ++ minted

/-- A key of `localNodeIdToEndpointMap` or a value of
`localMeasurementEndpointToNodeId`. -/
def Recorded (g : TunnelGateway) (node : NodeId) : Prop :=
  g.hasLocalNode node = true ∨
    ∃ key, g.localMeasurementEndpointToNodeId.find key = some node

def LocalPending (g : TunnelGateway) (minted : List NodeId) : Prop :=
  ∀ node ∈ minted, g.Recorded node → node ∈ g.mLocalTracker.ids

def hasMeasurementSurrogate (g : TunnelGateway) (node : NodeId) : Bool :=
  (g.mRemoteNodeIdToRemoteMeasurementSurrogate.find node).isSome

def RemotePending (g : TunnelGateway) : Prop :=
  ∀ node, g.hasMeasurementSurrogate node = true → node ∈ g.mRemoteTracker.ids

/-- A minted node is tracked already, and a minted node that leaves or expires is
not recorded under a key that stays. -/
def KeepsLocalPending (link : LinkLibrary) (g : TunnelGateway) (minted : List NodeId) :
    GatewayEvent → Prop
  | .lan now e =>
      match g.lanAction link now e with
      | .mint _ call => call.fromNode ∈ g.mLocalTracker.ids
      | .leave call => call.fromNode ∈ minted → ∀ key,
          g.localMeasurementEndpointToNodeId.find key = some call.fromNode →
            key = g.measurementKey link call.fromNode
      | .expireLocal => ∀ node ∈ minted, node ∈ g.mLocalTracker.expired now → ∀ key,
          g.localMeasurementEndpointToNodeId.find key = some node →
            ∃ id ∈ g.mLocalTracker.expired now, g.recordedKey link id = some key
      | _ => True
  | .tunnel _ _ => True

/-- A ping that has or opens a measurement surrogate comes from a tracked node, and
a BYEBYE that removes a tracked node finds no measurement surrogate of it. -/
def KeepsRemotePending (link : LinkLibrary) (g : TunnelGateway) : GatewayEvent → Prop
  | .lan _ _ => True
  | .tunnel io message =>
      (g.destination link message).isSome = true →
        (message.type = .measurementPing →
          (g.measurementSurrogate io message.fromNode).isSome = true →
            message.fromNode ∈ g.mRemoteTracker.ids) ∧
        (message.type = .byebye → (g.nodeSurrogate io message.fromNode).isSome = true →
          g.hasMeasurementSurrogate message.fromNode = false)

/-! ## The local tables -/

theorem LocalPending.congr {g' : TunnelGateway} (h : g.LocalPending minted)
    (htracker : g'.mLocalTracker = g.mLocalTracker)
    (hendpoints : g'.localNodeIdToEndpointMap = g.localNodeIdToEndpointMap)
    (hkeys : g'.localMeasurementEndpointToNodeId = g.localMeasurementEndpointToNodeId) :
    g'.LocalPending minted := by
  intro node hnode hrecorded
  rw [htracker]
  apply h node hnode
  rwa [Recorded, hasLocalNode, ← hendpoints, ← hkeys]

theorem Recorded.of_insert {endpoints : LocalNodeEndpoints} {key : String}
    {tracker : PeerTracker} {node node' : NodeId}
    (h : Recorded { g with
      localNodeIdToEndpointMap := g.localNodeIdToEndpointMap.insert node endpoints
      localMeasurementEndpointToNodeId := g.localMeasurementEndpointToNodeId.insert key node
      mLocalTracker := tracker } node') : node' = node ∨ g.Recorded node' := by
  rw [or_iff_not_imp_left]
  intro hne
  rcases h with hlocal | ⟨key', hkey⟩
  · left
    simpa [hasLocalNode, PartialMap.find_insert_of_ne _ hne] using hlocal
  · right
    refine ⟨key', ?_⟩
    rw [PartialMap.find_insert] at hkey
    split at hkey
    · exact absurd (Option.some.inj hkey).symm hne
    · exact hkey

theorem recorded_insert_self {endpoints : LocalNodeEndpoints} {keys : PartialMap String NodeId}
    {node : NodeId} :
    Recorded { g with
      localNodeIdToEndpointMap := g.localNodeIdToEndpointMap.insert node endpoints
      localMeasurementEndpointToNodeId := keys } node := by
  left
  simp [hasLocalNode]

theorem localPending_announce (h : g.LocalPending minted) (now : TimePoint)
    (sender : UdpEndpoint) (ttl : UInt8) (state : PeerState) (call : ForwardCall) :
    (g.perform link now (.announce sender ttl state call)).1.LocalPending minted := by
  intro node hnode hrecorded
  apply PeerTracker.mem_ids_updateTimeout.mpr
  rcases Recorded.of_insert hrecorded with heq | hold
  · exact Or.inl heq
  · exact Or.inr (h node hnode hold)

theorem localPending_mint_iff (h : g.LocalPending minted) (now : TimePoint)
    (sender : UdpEndpoint) (call : ForwardCall) :
    (g.perform link now (.mint sender call)).1.LocalPending (call.fromNode :: minted) ↔
      call.fromNode ∈ g.mLocalTracker.ids := by
  constructor
  · intro hnext
    exact hnext call.fromNode List.mem_cons_self recorded_insert_self
  · intro htracked node hnode hrecorded
    by_cases heq : node = call.fromNode
    · exact heq ▸ htracked
    · have hold : g.Recorded node := (Recorded.of_insert hrecorded).resolve_left heq
      exact h node ((List.mem_cons.mp hnode).resolve_left heq) hold

theorem recorded_leave_iff (now : TimePoint) (call : ForwardCall) (node : NodeId) :
    (g.perform link now (.leave call)).1.Recorded node ↔
      (node ≠ call.fromNode ∧ g.hasLocalNode node = true) ∨
        ∃ key ≠ g.measurementKey link call.fromNode,
          g.localMeasurementEndpointToNodeId.find key = some node := by
  apply or_congr
  · by_cases heq : node = call.fromNode <;>
      simp [perform, hasLocalNode, PartialMap.find_erase, heq]
  · simp only [perform, PartialMap.find_erase_eq_some]

theorem localPending_leave_iff (h : g.LocalPending minted) (now : TimePoint)
    (call : ForwardCall) :
    (g.perform link now (.leave call)).1.LocalPending minted ↔
      (call.fromNode ∈ minted → ∀ key,
        g.localMeasurementEndpointToNodeId.find key = some call.fromNode →
          key = g.measurementKey link call.fromNode) := by
  have hids (node : NodeId) :
      node ∈ (g.perform link now (.leave call)).1.mLocalTracker.ids ↔
        node ∈ g.mLocalTracker.ids ∧ node ≠ call.fromNode :=
    PeerTracker.mem_ids_remove
  constructor
  · intro hnext hminted key hkey
    by_contra hother
    have hrecorded := (@recorded_leave_iff link g now call call.fromNode).mpr
      (Or.inr ⟨key, hother, hkey⟩)
    exact ((hids _).mp (hnext call.fromNode hminted hrecorded)).2 rfl
  · intro hkeys node hnode hrecorded
    rw [hids]
    rcases (recorded_leave_iff now call node).mp hrecorded with ⟨hne, hlocal⟩ | ⟨key, hkey, hfind⟩
    · exact ⟨h node hnode (Or.inl hlocal), hne⟩
    · refine ⟨h node hnode (Or.inr ⟨key, hfind⟩), ?_⟩
      rintro rfl
      apply hkey
      exact hkeys hnode key hfind

theorem recorded_expireLocal_iff (now : TimePoint) (node : NodeId) :
    (g.perform link now .expireLocal).1.Recorded node ↔
      (node ∉ g.mLocalTracker.expired now ∧ g.hasLocalNode node = true) ∨
        ∃ key, (¬ ∃ id ∈ g.mLocalTracker.expired now, g.recordedKey link id = some key) ∧
          g.localMeasurementEndpointToNodeId.find key = some node := by
  apply or_congr
  · simp only [perform, pruneLocal, hasLocalNode, find_endpoints_foldl]
    by_cases hexpired : node ∈ g.mLocalTracker.expired now <;> simp [hexpired]
  · apply exists_congr
    intro key
    simp only [perform, pruneLocal, find_key_foldl]
    split
    · next hforgotten => simp [hforgotten]
    · next hkept => simp [hkept]

theorem localPending_expireLocal_iff (h : g.LocalPending minted) (now : TimePoint) :
    (g.perform link now .expireLocal).1.LocalPending minted ↔
      ∀ node ∈ minted, node ∈ g.mLocalTracker.expired now → ∀ key,
        g.localMeasurementEndpointToNodeId.find key = some node →
          ∃ id ∈ g.mLocalTracker.expired now, g.recordedKey link id = some key := by
  have hids (node : NodeId) :
      node ∈ (g.perform link now .expireLocal).1.mLocalTracker.ids ↔
        node ∈ g.mLocalTracker.ids ∧ node ∉ g.mLocalTracker.expired now :=
    PeerTracker.mem_ids_prune
  constructor
  · intro hnext node hminted hexpired key hkey
    by_contra hkept
    have hrecorded := (@recorded_expireLocal_iff link g now node).mpr
      (Or.inr ⟨key, hkept, hkey⟩)
    exact ((hids _).mp (hnext node hminted hrecorded)).2 hexpired
  · intro hkeys node hnode hrecorded
    rw [hids]
    rcases (recorded_expireLocal_iff now node).mp hrecorded with
      ⟨hpending, hlocal⟩ | ⟨key, hkept, hfind⟩
    · exact ⟨h node hnode (Or.inl hlocal), hpending⟩
    · refine ⟨h node hnode (Or.inr ⟨key, hfind⟩), fun hexpired ↦ ?_⟩
      apply hkept
      exact hkeys node hnode hexpired key hfind

theorem localPending_next_iff (h : g.LocalPending minted) (e : GatewayEvent) :
    (next (machine link) g e).LocalPending (noteMinted link minted g e) ↔
      KeepsLocalPending link g minted e := by
  cases e with
  | tunnel io message =>
      obtain ⟨-, htracker, hendpoints, hkeys⟩ := forwardMessageLocally_local link g io message
      exact ⟨fun _ ↦ trivial, fun _ ↦ h.congr htracker hendpoints hkeys⟩
  | lan now e =>
      rw [next_lan]
      simp only [KeepsLocalPending, noteMinted, mintedBy]
      cases g.lanAction link now e with
      | ignore => exact ⟨fun _ ↦ trivial, fun _ ↦ h⟩
      | relay call => exact ⟨fun _ ↦ trivial, fun _ ↦ h⟩
      | announce sender ttl state call =>
          exact ⟨fun _ ↦ trivial, fun _ ↦ localPending_announce h now sender ttl state call⟩
      | leave call => exact localPending_leave_iff h now call
      | mint sender call => exact localPending_mint_iff h now sender call
      | expireLocal => exact localPending_expireLocal_iff h now
      | expireRemote =>
          obtain ⟨htracker, hendpoints, hkeys⟩ := pruneRemote_local g now
          exact ⟨fun _ ↦ trivial, fun _ ↦ h.congr htracker hendpoints hkeys⟩

/-! ## The measurement surrogates -/

theorem RemotePending.mono {g' : TunnelGateway} (h : g.RemotePending)
    (hsurrogates : g'.mRemoteNodeIdToRemoteMeasurementSurrogate =
      g.mRemoteNodeIdToRemoteMeasurementSurrogate)
    (hids : ∀ node ∈ g.mRemoteTracker.ids, g.hasMeasurementSurrogate node = true →
      node ∈ g'.mRemoteTracker.ids) : g'.RemotePending := by
  intro node hnode
  rw [hasMeasurementSurrogate, hsurrogates] at hnode
  exact hids node (h node hnode) hnode

theorem RemotePending.perform (h : g.RemotePending) (now : TimePoint) (a : LanAction) :
    (g.perform link now a).1.RemotePending := by
  by_cases ha : a = .expireRemote
  · subst ha
    intro node hnode
    simp only [TunnelGateway.perform, hasMeasurementSurrogate,
      find_measurementSurrogate_pruneRemote] at hnode
    by_cases hexpired : node ∈ g.mRemoteTracker.expired now
    · simp [hexpired] at hnode
    · refine PeerTracker.mem_ids_prune.mpr ⟨h node ?_, hexpired⟩
      simpa [hasMeasurementSurrogate, hexpired] using hnode
  · obtain ⟨htracker, -, hsurrogates⟩ := @perform_remote link g now a ha
    apply h.mono hsurrogates
    intro node hnode _
    exact htracker ▸ hnode

theorem remotePending_ping_iff (h : g.RemotePending) (node : NodeId) (socket : UdpEndpoint) :
    (g.withMeasurementSurrogate node socket).RemotePending ↔
      node ∈ g.mRemoteTracker.ids := by
  have hkeys (node' : NodeId) :
      (g.withMeasurementSurrogate node socket).hasMeasurementSurrogate node' = true ↔
        node' = node ∨ g.hasMeasurementSurrogate node' = true := by
    simp only [hasMeasurementSurrogate, withMeasurementSurrogate, PartialMap.find_emplace]
    by_cases hnode : node' = node
    · subst hnode
      cases g.mRemoteNodeIdToRemoteMeasurementSurrogate.find node' <;> simp
    · simp [hnode]
  constructor
  · intro hnext
    apply hnext node
    exact (hkeys node).mpr (Or.inl rfl)
  · intro htracked node' hnode'
    rcases (hkeys node').mp hnode' with rfl | hold
    · exact htracked
    · exact h node' hold

theorem remotePending_observe_iff (h : g.RemotePending) (now : TimePoint)
    (message : LocalMessage) (s : RemoteNodeSurrogate) :
    ((g.withNodeSurrogate message.fromNode s).observe link now message).1.RemotePending ↔
      (message.type = .byebye → g.hasMeasurementSurrogate message.fromNode = false) := by
  rw [observe_fst]
  constructor
  · intro hnext htype
    by_contra hsurrogate
    have hkept : g.hasMeasurementSurrogate message.fromNode = true := by
      simpa using hsurrogate
    have htracked := hnext message.fromNode hkept
    exact (fromNode_mem_observedTracker.mp htracked).1 htype
  · intro hnone
    refine h.mono rfl (fun node hnode hsurrogate ↦ ?_)
    by_cases heq : node = message.fromNode
    · subst heq
      refine fromNode_mem_observedTracker.mpr ⟨fun htype ↦ ?_, Or.inl hnode⟩
      rw [hnone htype] at hsurrogate
      cases hsurrogate
    · exact (mem_observedTracker_of_ne heq).mpr hnode

theorem remotePending_next_iff (h : g.RemotePending) (e : GatewayEvent) :
    (next (machine link) g e).RemotePending ↔ KeepsRemotePending link g e := by
  cases e with
  | lan now e =>
      rw [next_lan]
      exact ⟨fun _ ↦ trivial, fun _ ↦ h.perform now _⟩
  | tunnel io message =>
      rw [next_tunnel, KeepsRemotePending]
      have hdelivery := delivery link g io message
      generalize (g.forwardMessageLocally link io message).1 = g' at hdelivery ⊢
      generalize (g.forwardMessageLocally link io message).2.1 = buffer at hdelivery
      generalize (g.forwardMessageLocally link io message).2.2 = out at hdelivery
      cases hdelivery with
      | unaddressed hdest => simp [hdest, h]
      | pingUnopened htype hdest hsocket => simp [htype, hsocket, h]
      | @ping _ socket htype hdest hsocket =>
          rw [remotePending_ping_iff h]
          simp [htype, hdest, hsocket]
      | unopened htype hdest hsurrogate => simp [htype, hsurrogate, h]
      | @unroutable _ s htype hdest hsurrogate hlocal =>
          have hbyebye := type_ne_byebye_of_unroutable hdest hlocal
          have hnext : (g.withNodeSurrogate message.fromNode s).RemotePending :=
            h.mono rfl (fun _ hnode _ ↦ hnode)
          simp [htype, hbyebye, hnext]
      | @delivered _ _ s htype hdest hsurrogate hlocal =>
          rw [remotePending_observe_iff h]
          simp [htype, hdest, hsurrogate]

end TunnelGateway

end LinkExtender
