import LinkExtender.TunnelGateway.Measurements
import LinkExtender.TunnelGateway.Surrogates

/-!
# Local nodes and remote nodes

`handle_state_message` ignores the nodes that have a surrogate, so an announcement
on the local network never makes a remote node local.  The way from the tunnel asks
`hasLocalNode` of the target only, and a surrogate is opened for any sender.
-/

namespace LinkExtender

namespace TunnelGateway

open EventMachine

variable {link : LinkLibrary} {g : TunnelGateway}

/-- No node is a key of both `localNodeIdToEndpointMap` and
`mRemoteNodeIdToRemoteNodeSurrogate`. -/
def Exclusive (g : TunnelGateway) : Prop :=
  ∀ node, g.hasLocalNode node = true → g.hasRemoteNodeSurrogate node = false

/-- A made-up node is none of the remote ones, and a tunnel message that has or
opens a node surrogate is not of a local node. -/
def KeepsApart (link : LinkLibrary) (g : TunnelGateway) : GatewayEvent → Prop
  | .lan now e => ∀ node ∈ g.mintedBy link (.lan now e), g.hasRemoteNodeSurrogate node = false
  | .tunnel io message =>
      message.type ≠ .measurementPing → (g.destination link message).isSome = true →
        (g.nodeSurrogate io message.fromNode).isSome = true →
          g.hasLocalNode message.fromNode = false

/-! ## One step -/

theorem Exclusive.mono {g' : TunnelGateway} (h : g.Exclusive)
    (hlocal : ∀ node, g'.hasLocalNode node = true → g.hasLocalNode node = true)
    (hremote : ∀ node, g'.hasRemoteNodeSurrogate node = true →
      g.hasRemoteNodeSurrogate node = true) : g'.Exclusive := by
  intro node hnode
  by_contra hsurrogate
  have hapart := h node (hlocal node hnode)
  rw [hremote node (by simpa using hsurrogate)] at hapart
  cases hapart

theorem exclusive_iff_of_recorded {g' : TunnelGateway} {node : NodeId}
    {endpoints : LocalNodeEndpoints} (h : g.Exclusive)
    (hlocal : g'.localNodeIdToEndpointMap = g.localNodeIdToEndpointMap.insert node endpoints)
    (hremote : g'.mRemoteNodeIdToRemoteNodeSurrogate = g.mRemoteNodeIdToRemoteNodeSurrogate) :
    g'.Exclusive ↔ g.hasRemoteNodeSurrogate node = false := by
  have hsurrogates : ∀ node', g'.hasRemoteNodeSurrogate node' =
      g.hasRemoteNodeSurrogate node' := by
    intro node'
    rw [hasRemoteNodeSurrogate, hremote, hasRemoteNodeSurrogate]
  have hnodes : ∀ node', g'.hasLocalNode node' = true ↔
      node' = node ∨ g.hasLocalNode node' = true := by
    intro node'
    simp only [hasLocalNode, hlocal, PartialMap.find_insert]
    by_cases heq : node' = node <;> simp [heq]
  constructor
  · intro hnext
    rw [← hsurrogates]
    exact hnext node ((hnodes node).mpr (Or.inl rfl))
  · intro hnode node' hnode'
    rw [hsurrogates]
    rcases (hnodes node').mp hnode' with rfl | hold
    · exact hnode
    · exact h node' hold

theorem exclusive_iff_of_opened {g' : TunnelGateway} {node : NodeId}
    {s : RemoteNodeSurrogate} (h : g.Exclusive)
    (hlocal : g'.localNodeIdToEndpointMap = g.localNodeIdToEndpointMap)
    (hopened : g'.mRemoteNodeIdToRemoteNodeSurrogate =
      (g.withNodeSurrogate node s).mRemoteNodeIdToRemoteNodeSurrogate) :
    g'.Exclusive ↔ g.hasLocalNode node = false := by
  have hnodes : ∀ node', g'.hasLocalNode node' = g.hasLocalNode node' := by
    intro node'
    rw [hasLocalNode, hlocal, hasLocalNode]
  have hsurrogates : ∀ node', g'.hasRemoteNodeSurrogate node' = true ↔
      node' = node ∨ g.hasRemoteNodeSurrogate node' = true := by
    intro node'
    rw [hasRemoteNodeSurrogate, hopened]
    exact hasRemoteNodeSurrogate_withNodeSurrogate
  constructor
  · intro hnext
    by_contra hnode
    have hapart := hnext node (by simpa [hnodes] using hnode)
    rw [(hsurrogates node).mpr (Or.inl rfl)] at hapart
    cases hapart
  · intro hnode node' hnode'
    rw [hnodes] at hnode'
    by_contra hsurrogate
    rcases (hsurrogates node').mp (by simpa using hsurrogate) with rfl | hold
    · rw [hnode] at hnode'
      cases hnode'
    · rw [h node' hnode'] at hold
      cases hold

/-- From a state in which the nodes are apart, they are apart in the next state
exactly when the event meets the condition. -/
theorem exclusive_next_iff (h : g.Exclusive) (e : GatewayEvent) :
    (next (machine link) g e).Exclusive ↔ KeepsApart link g e := by
  cases e with
  | lan now e =>
      rw [next_lan, KeepsApart, mintedBy]
      have hreading := lanReading link g now e
      generalize g.lanAction link now e = a at hreading ⊢
      cases hreading with
      | ignored | relayed => simpa [perform] using h
      | announced _ _ hforeign _ =>
          refine Iff.trans (exclusive_iff_of_recorded h rfl rfl) ?_
          simp [hforeign]
      | left =>
          simp only [perform]
          refine ⟨fun _ ↦ by simp, fun _ ↦ h.mono ?_ (fun _ hnode ↦ hnode)⟩
          intro node hnode
          simp only [hasLocalNode, PartialMap.find_erase] at hnode ⊢
          split at hnode
          · cases hnode
          · exact hnode
      | minted =>
          refine Iff.trans (exclusive_iff_of_recorded h rfl rfl) ?_
          simp
      | localDue =>
          refine ⟨fun _ ↦ by simp, fun _ ↦ h.mono ?_ ?_⟩
          · intro node hnode
            simp only [perform, pruneLocal, hasLocalNode, find_endpoints_foldl] at hnode ⊢
            split at hnode
            · cases hnode
            · exact hnode
          · intro node hnode
            have hsurrogates := (@perform_remote link g now .expireLocal (by simp)).2.1
            rwa [hasRemoteNodeSurrogate, hsurrogates] at hnode
      | remoteDue =>
          refine ⟨fun _ ↦ by simp, fun _ ↦ h.mono ?_ ?_⟩
          · intro node hnode
            rwa [perform, hasLocalNode, (pruneRemote_local g now).2.1] at hnode
          · intro node hnode
            rw [perform, hasRemoteNodeSurrogate, find_nodeSurrogate_pruneRemote] at hnode
            split at hnode
            · cases hnode
            · exact hnode
  | tunnel io message =>
      rw [next_tunnel, KeepsApart]
      have hdelivery := delivery link g io message
      generalize (g.forwardMessageLocally link io message).1 = g' at hdelivery ⊢
      generalize (g.forwardMessageLocally link io message).2.1 = buffer at hdelivery
      generalize (g.forwardMessageLocally link io message).2.2 = out at hdelivery
      cases hdelivery with
      | unaddressed hdest => simp [hdest, h]
      | pingUnopened htype hdest hsocket => simp [htype, h]
      | ping htype hdest hsocket =>
          exact ⟨fun _ hnot ↦ absurd htype hnot, fun _ ↦ h.mono (fun _ h ↦ h) (fun _ h ↦ h)⟩
      | unopened htype hdest hsurrogate => simp [hsurrogate, h]
      | @unroutable _ s htype hdest hsurrogate hlocal =>
          refine Iff.trans (exclusive_iff_of_opened h rfl rfl) ?_
          simp [htype, hdest, hsurrogate]
      | @delivered _ _ s htype hdest hsurrogate hlocal =>
          rw [observe_fst]
          refine Iff.trans (exclusive_iff_of_opened h rfl rfl) ?_
          simp [htype, hdest, hsurrogate]

/-! ## Runs -/

theorem exclusive_create (interfaceAddress : IpAddress) :
    (create interfaceAddress).Exclusive := by
  intro node hnode
  simp [create, hasLocalNode] at hnode

/-- No node is local and remote at once in any state of a run exactly when all of
its events meet the condition. -/
theorem throughout_exclusive_iff (link : LinkLibrary) (interfaceAddress : IpAddress)
    (es : List GatewayEvent) :
    Throughout (machine link) Exclusive (create interfaceAddress) es ↔
      Along (machine link) (KeepsApart link) (create interfaceAddress) es :=
  throughout_iff_along_of_next_iff (machine link) (I := Exclusive)
    (fun _ e h ↦ exclusive_next_iff h e) (exclusive_create interfaceAddress) es

/-! ## A node that is announced on both sides -/

def announcedLocally : Datagram :=
  ⟨announcement ++ LinkLibrary.endpointEntry (localhost 20809), by decide⟩

def announcedTwice : List GatewayEvent :=
  [.lan 0 (.multicast kSameSubnetPeer announcedLocally),
    .tunnel (openSockets 10000)
      ⟨.broadcast, default, .ofBytes announcement, announcement.length, none⟩]

/-- A node of the local network is announced through the tunnel as well; from then
on its own messages are ignored. -/
theorem not_throughout_exclusive :
    ¬ Throughout (machine LinkLibrary.version1) Exclusive (create kLocalIfAddr)
        announcedTwice ∧
      emit (machine LinkLibrary.version1)
        (run (machine LinkLibrary.version1) (create kLocalIfAddr) announcedTwice)
        (.lan (seconds 1) (.multicast kSameSubnetPeer announcedLocally)) = [] := by
  refine ⟨?_, by decide +kernel⟩
  intro h
  have hapart := h.last default (by decide +kernel)
  revert hapart
  decide +kernel

end TunnelGateway

end LinkExtender
