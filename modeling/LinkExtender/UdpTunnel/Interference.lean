import LinkExtender.UdpTunnel.Routing
import LinkExtender.UdpTunnel.Session

/-!
# What one peer can do to the routes of another

A datagram changes routes by position for a BYE and by node for everything else.
The node that a BYEBYE names need not live behind the peer that sends it.
-/

namespace LinkExtender

namespace UdpTunnel

open EventMachine

/-- The states of a tunnel, also after `stop_listening`. -/
inductive Reachable : UdpTunnel → Prop where
  | create (initialPeers : List UdpEndpoint) : Reachable (create initialPeers)
  | next {t : UdpTunnel} (h : Reachable t) (e : TunnelEvent) : Reachable (next machine t e)
  | stop {t : UdpTunnel} (h : Reachable t) : Reachable t.stopListening.1

/-- The index only leads to entries of the endpoint that is looked up. -/
def Grounded (t : UdpTunnel) : Prop :=
  ∀ endpoint idx, t.mEndpointToPeerIdx.find endpoint = some idx →
    ∃ peer, t.mPeers[idx]? = some peer ∧ peer.endpoint = endpoint

theorem Grounded.endpoint_eq {t : UdpTunnel} (h : t.Grounded) {endpoint : UdpEndpoint}
    {idx : ℕ} {peer : PeerEntry} (hpeer : t.peer? endpoint = some (idx, peer)) :
    peer.endpoint = endpoint := by
  obtain ⟨hfind, hget⟩ := peer?_eq_some.mp hpeer
  obtain ⟨peer', hget', hendpoint⟩ := h endpoint idx hfind
  rw [Option.some.inj (hget.symm.trans hget')]
  exact hendpoint

theorem Indexed.grounded {t : UdpTunnel} (h : t.Indexed) : t.Grounded :=
  fun _ _ hfind ↦ h.getElem? hfind

/-- A table that keeps its positions and their endpoints keeps the index right. -/
theorem Grounded.congr {t t' : UdpTunnel} (h : t.Grounded)
    (hindex : t'.mEndpointToPeerIdx = t.mEndpointToPeerIdx)
    (hendpoints : t'.endpoints = t.endpoints) : t'.Grounded := by
  intro endpoint idx hfind
  rw [hindex] at hfind
  obtain ⟨peer, hget, hendpoint⟩ := h endpoint idx hfind
  have hposition : t'.endpoints[idx]? = some endpoint := by
    rw [hendpoints, getElem?_endpoints, hget, Option.map_some, hendpoint]
  rw [getElem?_endpoints] at hposition
  exact Option.map_eq_some_iff.mp hposition

theorem Grounded.pushPeer {t : UdpTunnel} (h : t.Grounded) (endpoint : UdpEndpoint) :
    (t.pushPeer endpoint).Grounded := by
  intro other idx hfind
  simp only [UdpTunnel.pushPeer, PartialMap.find_insert] at hfind ⊢
  split at hfind
  · obtain rfl := Option.some.inj hfind
    exact ⟨freshEntry endpoint, by simp, by rw [‹other = endpoint›]; rfl⟩
  · obtain ⟨peer, hget, hendpoint⟩ := h other idx hfind
    refine ⟨peer, ?_, hendpoint⟩
    rw [List.getElem?_append_left (List.getElem?_eq_some_iff.mp hget).1]
    exact hget

theorem grounded_next {t : UdpTunnel} (h : t.Grounded) (e : TunnelEvent) :
    (next machine t e).Grounded := by
  have heffect := effect t e
  generalize next machine t e = t', emit machine t e = out at heffect ⊢
  cases heffect with
  | hello _ _ hpeer | keepalive _ _ hpeer _ | bye _ _ hpeer =>
      exact h.congr rfl (endpoints_setPeer (peer?_eq_some.mp hpeer).2 rfl)
  | @maintain now hrun =>
      apply h.congr (mEndpointToPeerIdx_runMaintenance t now)
      rw [endpoints, mPeers_runMaintenance hrun]
      simp [endpoints, Function.comp_def]
  | add _ => exact h.pushPeer _
  | accept _ => exact Grounded.pushPeer (h.congr rfl rfl) _
  | remove _ => exact (indexed_rebuildEndpointIndex _ rfl).grounded
  | _ => exact h.congr rfl rfl

theorem Reachable.grounded {t : UdpTunnel} (h : t.Reachable) : t.Grounded := by
  induction h with
  | create initialPeers => exact (indexed_create initialPeers).grounded
  | next _ e ih => exact grounded_next ih e
  | stop _ _ =>
      intro endpoint idx hfind
      cases hfind

theorem reachable_run (initialPeers : List UdpEndpoint) (es : List TunnelEvent) :
    (run machine (create initialPeers) es).Reachable :=
  run_invariant machine (I := Reachable) (fun _ e h ↦ h.next e) (.create initialPeers) es

/-- The node is mapped to the connected entry `peer` at position `idx`. -/
structure MapsTo (t : UdpTunnel) (node : NodeId) (idx : ℕ) (peer : PeerEntry) : Prop where
  mapped : t.remoteNodeIdToPeerIdx.find node = some idx
  entry : t.mPeers[idx]? = some peer
  connected : peer.state = .connected

/-- A datagram leaves the nodes behind the other peers where they are. -/
def KeepsRoutes (t : UdpTunnel) (now : TimePoint) (sender : UdpEndpoint)
    (datagram : Datagram) : Prop :=
  ∀ node idx peer, t.MapsTo node idx peer → peer.endpoint ≠ sender →
    (t.receive now sender datagram).1.MapsTo node idx peer

/-- A BYEBYE of a connected sender names a node that lives behind another peer. -/
def LeavesForOther (t : UdpTunnel) (sender : UdpEndpoint) (datagram : Datagram) : Prop :=
  ∃ message, messageOf datagram = some message ∧ message.type = .byebye ∧
    t.isConnected sender = true ∧
    ∃ idx peer, t.MapsTo message.fromNode idx peer ∧ peer.endpoint ≠ sender

theorem MapsTo.setPeer {t : UdpTunnel} {node : NodeId} {idx i : ℕ} {peer old new : PeerEntry}
    (h : t.MapsTo node idx peer) (hold : t.mPeers[i]? = some old)
    (hne : peer.endpoint ≠ old.endpoint) : (t.setPeer i new).MapsTo node idx peer := by
  refine ⟨h.mapped, ?_, h.connected⟩
  have hi : i ≠ idx := by
    rintro rfl
    apply hne
    rw [Option.some.inj (h.entry.symm.trans hold)]
  rw [UdpTunnel.setPeer, List.getElem?_set_ne hi]
  exact h.entry

theorem keepsRoutes_of_not_leavesForOther {t : UdpTunnel} (h : t.Grounded) {now : TimePoint}
    {sender : UdpEndpoint} {datagram : Datagram} (hleaves : ¬ t.LeavesForOther sender datagram) :
    t.KeepsRoutes now sender datagram := by
  intro node idx peer hmaps hne
  have heffect := effect_receive t now sender datagram
  generalize (t.receive now sender datagram).1 = t',
    (t.receive now sender datagram).2 = out at heffect ⊢
  cases heffect with
  | hello _ _ hpeer | keepalive _ _ hpeer _ =>
      apply hmaps.setPeer (peer?_eq_some.mp hpeer).2
      rwa [h.endpoint_eq hpeer]
  | @bye _ _ _ _ i old _ _ hpeer =>
      have hold := (peer?_eq_some.mp hpeer).2
      have hset : (t.setPeer i { old with state := .disconnected }).MapsTo node idx peer :=
        hmaps.setPeer hold (by rwa [h.endpoint_eq hpeer])
      refine ⟨?_, hset.entry, hset.connected⟩
      refine (PartialMap.find_eraseValues_eq_some ..).mpr ⟨hmaps.mapped, ?_⟩
      rw [decide_eq_false_iff_not]
      rintro rfl
      apply hne
      rw [Option.some.inj (hmaps.entry.symm.trans hold)]
      exact h.endpoint_eq hpeer
  | @leave _ _ _ message _ _ hmessage htype hpeer hstate =>
      refine ⟨(PartialMap.find_erase_eq_some ..).mpr ⟨?_, hmaps.mapped⟩, hmaps.entry,
        hmaps.connected⟩
      rintro rfl
      exact hleaves ⟨message, hmessage, htype, isConnected_of_peer? hpeer hstate, idx, peer,
        hmaps, hne⟩
  | data =>
      refine ⟨?_, hmaps.entry, hmaps.connected⟩
      rw [PartialMap.find_emplace]
      split
      · rename_i hfree
        rw [← hfree.1, hmaps.mapped] at hfree
        cases hfree.2
      · exact hmaps.mapped
  | unknown | ignored => exact ⟨hmaps.mapped, hmaps.entry, hmaps.connected⟩

theorem not_keepsRoutes_of_leavesForOther {t : UdpTunnel} {now : TimePoint}
    {sender : UdpEndpoint} {datagram : Datagram} (hleaves : t.LeavesForOther sender datagram) :
    ¬ t.KeepsRoutes now sender datagram := by
  obtain ⟨message, hmessage, htype, hconnected, idx, peer, hmaps, hne⟩ := hleaves
  intro hkeeps
  have hafter := (hkeeps message.fromNode idx peer hmaps hne).mapped
  obtain ⟨message', hmessage', heq⟩ := receive_eq_dispatch t now sender datagram
  obtain rfl := Option.some.inj (hmessage.symm.trans hmessage')
  obtain ⟨i, found, hpeer, hstate⟩ := isConnected_eq_true.mp hconnected
  rw [heq, dispatch_of_data (by rw [htype]; rfl)] at hafter
  simp [handleData, hpeer, hstate, htype] at hafter

/-- A datagram of one peer leaves the routes to the others alone exactly when it is
not the BYEBYE, from a connected peer, of a node that lives behind another. -/
theorem keepsRoutes_iff {t : UdpTunnel} (h : t.Reachable) (now : TimePoint)
    (sender : UdpEndpoint) (datagram : Datagram) :
    t.KeepsRoutes now sender datagram ↔ ¬ t.LeavesForOther sender datagram :=
  ⟨fun hkeeps hleaves ↦ not_keepsRoutes_of_leavesForOther hleaves hkeeps,
    keepsRoutes_of_not_leavesForOther h.grounded⟩

/-- Two connected peers, and a node that is heard of behind the first. -/
def twoSites : UdpTunnel :=
  run machine (create [localhost 1, localhost 2])
    [.receive 0 (localhost 1) (controlDatagram .tunnelHello),
      .receive 0 (localhost 2) (controlDatagram .tunnelHello),
      .receive 0 (localhost 1) (controlDatagram .broadcast)]

/-- The other peer may announce the node too. -/
theorem keepsRoutes_broadcast :
    twoSites.KeepsRoutes 0 (localhost 2) (controlDatagram .broadcast) := by
  refine (keepsRoutes_iff (reachable_run _ _) _ _ _).mpr ?_
  rintro ⟨message, hmessage, htype, -⟩
  rw [type_of_messageOf hmessage rfl] at htype
  revert htype
  decide

/-- When it says that the node has left, the route is gone. -/
theorem not_keepsRoutes_byebye :
    ¬ twoSites.KeepsRoutes 0 (localhost 2) (controlDatagram .byebye) := by
  intro hkeeps
  have hafter := (hkeeps default 0 ⟨localhost 1, .connected, 0⟩
    ⟨by decide +kernel, by decide +kernel, rfl⟩ (by decide)).mapped
  revert hafter
  decide +kernel

end UdpTunnel

end LinkExtender
