import LinkExtender.TunnelGateway.Steps

/-!
# Surrogates and the remote tracker

A surrogate is released by `onRemotePeerTimedOut` only, so it is released at all
only while its node has a pending entry in `mRemoteTracker`.
-/

namespace LinkExtender

namespace TunnelGateway

open EventMachine

variable {link : LinkLibrary} {g : TunnelGateway}

/-- Every key of `mRemoteNodeIdToRemoteNodeSurrogate` has a pending entry in
`mRemoteTracker`. -/
def Reclaimable (g : TunnelGateway) : Prop :=
  ∀ node, g.hasRemoteNodeSurrogate node = true → node ∈ g.mRemoteTracker.ids

/-- A tunnel message whose sender has or is given a surrogate is no BYEBYE, and it
leaves the sender with a pending entry: there is one already, or it is a state
message that can be parsed and sent on from this interface. -/
def KeepsTracked (link : LinkLibrary) (g : TunnelGateway) : GatewayEvent → Prop
  | .lan _ _ => True
  | .tunnel io message =>
      message.type ≠ .measurementPing →
      ∀ dest, g.destination link message = some dest →
      (g.nodeSurrogate io message.fromNode).isSome = true →
        message.type ≠ .byebye ∧
          (message.fromNode ∈ g.mRemoteTracker.ids ∨
            announces link message = true ∧ (g.localEndpoint dest).isSome = true)

/-! ## One step -/

theorem hasRemoteNodeSurrogate_withNodeSurrogate {node node' : NodeId}
    {s : RemoteNodeSurrogate} :
    (g.withNodeSurrogate node s).hasRemoteNodeSurrogate node' = true ↔
      node' = node ∨ g.hasRemoteNodeSurrogate node' = true := by
  simp only [hasRemoteNodeSurrogate, withNodeSurrogate, PartialMap.find_emplace]
  by_cases hnode : node' = node
  · subst hnode
    cases g.mRemoteNodeIdToRemoteNodeSurrogate.find node' <;> simp
  · simp [hnode]

theorem Reclaimable.congr {g' : TunnelGateway} (h : g.Reclaimable)
    (htracker : g'.mRemoteTracker = g.mRemoteTracker)
    (hsurrogates : g'.mRemoteNodeIdToRemoteNodeSurrogate =
      g.mRemoteNodeIdToRemoteNodeSurrogate) : g'.Reclaimable := by
  intro node hnode
  rw [htracker]
  apply h
  rwa [hasRemoteNodeSurrogate, ← hsurrogates]

theorem Reclaimable.pruneRemote (h : g.Reclaimable) (now : TimePoint) :
    (g.pruneRemote now).1.Reclaimable := by
  intro node hnode
  rw [hasRemoteNodeSurrogate, find_nodeSurrogate_pruneRemote] at hnode
  by_cases hexpired : node ∈ g.mRemoteTracker.expired now
  · simp [hexpired] at hnode
  · rw [mRemoteTracker_pruneRemote, PeerTracker.mem_ids_prune]
    refine ⟨h node ?_, hexpired⟩
    simpa [hasRemoteNodeSurrogate, hexpired] using hnode

theorem Reclaimable.perform (h : g.Reclaimable) (now : TimePoint) (a : LanAction) :
    (g.perform link now a).1.Reclaimable := by
  by_cases ha : a = .expireRemote
  · subst ha
    exact h.pruneRemote now
  · obtain ⟨htracker, hsurrogates, -⟩ := @perform_remote link g now a ha
    exact h.congr htracker hsurrogates

theorem reclaimable_iff_of_opened {g' : TunnelGateway} {node : NodeId}
    {s : RemoteNodeSurrogate} (h : g.Reclaimable)
    (hopened : g'.mRemoteNodeIdToRemoteNodeSurrogate =
      (g.withNodeSurrogate node s).mRemoteNodeIdToRemoteNodeSurrogate)
    (hother : ∀ node' ≠ node,
      node' ∈ g'.mRemoteTracker.ids ↔ node' ∈ g.mRemoteTracker.ids) :
    g'.Reclaimable ↔ node ∈ g'.mRemoteTracker.ids := by
  have hkeys : ∀ node', g'.hasRemoteNodeSurrogate node' = true ↔
      node' = node ∨ g.hasRemoteNodeSurrogate node' = true := by
    intro node'
    rw [hasRemoteNodeSurrogate, hopened]
    exact hasRemoteNodeSurrogate_withNodeSurrogate
  constructor
  · intro hnext
    apply hnext
    exact (hkeys node).mpr (Or.inl rfl)
  · intro hnode node' hnode'
    by_cases heq : node' = node
    · exact heq ▸ hnode
    · apply (hother node' heq).mpr
      apply h
      exact ((hkeys node').mp hnode').resolve_left heq

/-- From a reclaimable state, the next state is reclaimable exactly when the
event meets the condition. -/
theorem reclaimable_next_iff (h : g.Reclaimable) (e : GatewayEvent) :
    (next (machine link) g e).Reclaimable ↔ KeepsTracked link g e := by
  cases e with
  | lan now e =>
      rw [next_lan]
      exact ⟨fun _ ↦ trivial, fun _ ↦ h.perform now _⟩
  | tunnel io message =>
      rw [next_tunnel, KeepsTracked]
      have hdelivery := delivery link g io message
      generalize (g.forwardMessageLocally link io message).1 = g' at hdelivery ⊢
      generalize (g.forwardMessageLocally link io message).2.1 = buffer at hdelivery
      generalize (g.forwardMessageLocally link io message).2.2 = out at hdelivery
      cases hdelivery with
      | unaddressed hdest => simp [hdest, h]
      | pingUnopened htype hdest hsocket => simp [htype, h]
      | ping htype hdest hsocket =>
          exact ⟨fun _ hnot ↦ absurd htype hnot, fun _ ↦ h.congr rfl rfl⟩
      | unopened htype hdest hsurrogate => simp [hsurrogate, h]
      | @unroutable _ s htype hdest hsurrogate hlocal =>
          have hbyebye := type_ne_byebye_of_unroutable hdest hlocal
          rw [reclaimable_iff_of_opened h rfl (fun _ _ ↦ Iff.rfl)]
          simp [htype, hdest, hsurrogate, hlocal, hbyebye, withNodeSurrogate]
      | @delivered _ _ s htype hdest hsurrogate hlocal =>
          have hiff := @reclaimable_iff_of_opened g
            ((g.withNodeSurrogate message.fromNode s).observe link io.now message).1
            message.fromNode s h (by rw [observe_fst])
            (fun _ hne ↦ by rw [observe_fst]; exact mem_observedTracker_of_ne hne)
          rw [hiff, observe_fst, fromNode_mem_observedTracker]
          simp [htype, hdest, hsurrogate, hlocal, withNodeSurrogate]

/-! ## Runs -/

theorem reclaimable_create (interfaceAddress : IpAddress) :
    (create interfaceAddress).Reclaimable := by
  intro node hnode
  simp [create, hasRemoteNodeSurrogate] at hnode

/-- Every state that a run passes through is reclaimable exactly when all of its
events meet the condition. -/
theorem throughout_reclaimable_iff (link : LinkLibrary) (interfaceAddress : IpAddress)
    (es : List GatewayEvent) :
    Throughout (machine link) Reclaimable (create interfaceAddress) es ↔
      Along (machine link) (KeepsTracked link) (create interfaceAddress) es :=
  throughout_iff_along_of_next_iff (machine link) (I := Reclaimable)
    (fun _ e h ↦ reclaimable_next_iff h e) (reclaimable_create interfaceAddress) es

/-- In a reclaimable state, a node that has left or whose deadlines have all
passed is without a surrogate once the tracker has been pruned. -/
theorem Reclaimable.released (h : g.Reclaimable) {node : NodeId} {now : TimePoint}
    (hsilent : ∀ t, (t, node) ∈ g.mRemoteTracker.mTimeouts.entries → t < now) :
    (g.pruneRemote now).1.hasRemoteNodeSurrogate node = false := by
  by_contra hsurrogate
  have hkept := h.pruneRemote now node (by simpa using hsurrogate)
  rw [mRemoteTracker_pruneRemote, PeerTracker.mem_ids_prune] at hkept
  obtain ⟨t, ht⟩ := DeadlineQueue.mem_keys.mp hkept.1
  apply hkept.2
  apply DeadlineQueue.mem_due.mpr
  exact ⟨t, ht, hsilent t ht⟩

/-! ## A node that says goodbye -/

def announcement : List UInt8 := LinkLibrary.discoveryMessage 1 5 default []

def farewell : List UInt8 := LinkLibrary.discoveryMessage 3 0 default []

def announceAndLeave : List GatewayEvent :=
  [.tunnel (openSockets 10000)
      ⟨.broadcast, default, .ofBytes announcement, announcement.length, none⟩,
    .tunnel (openSockets 10003)
      ⟨.byebye, default, .ofBytes farewell, farewell.length, none⟩]

/-- After a BROADCAST and a BYEBYE of one node its surrogate has no entry left, it
outlives every later firing of the timer, and the node itself goes unheard on the
local network. -/
theorem not_throughout_reclaimable :
    ¬ Throughout (machine LinkLibrary.version1) Reclaimable (create kLocalIfAddr)
        announceAndLeave ∧
      (run (machine LinkLibrary.version1) (create kLocalIfAddr)
        (announceAndLeave ++ [.lan (seconds 3600) .remoteTimer])).hasRemoteNodeSurrogate
          default = true ∧
      emit (machine LinkLibrary.version1)
        (run (machine LinkLibrary.version1) (create kLocalIfAddr)
          (announceAndLeave ++ [.lan (seconds 3600) .remoteTimer]))
        (.lan (seconds 3601) (.multicast kSameSubnetPeer
          ⟨announcement ++ LinkLibrary.endpointEntry (localhost 20809), by decide⟩)) = [] := by
  refine ⟨?_, by decide +kernel, by decide +kernel⟩
  intro h
  have htracked := h.last default (by decide +kernel)
  revert htracked
  decide +kernel

end TunnelGateway

end LinkExtender
