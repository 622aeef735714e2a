import LinkExtender.Site.Region
import LinkExtender.Site.Relay
import LinkExtender.TunnelGateway.Datagrams

/-!
# Where the datagrams on a local network come from

Whatever a gateway puts out on its local network was read before by a gateway of another
site from the network there.  It goes out as it came in, but for the endpoint entry of a
state message, which gives way to that of the surrogate.
-/

namespace LinkExtender

open EventMachine
open Handshake (Hosts Network)
open Internet (InternetEvent near far)

/-! ## The two gateways -/

namespace TunnelGateway

variable {link : LinkLibrary} {g : TunnelGateway}

/-- The calls of `forward` that a datagram may give rise to. -/
inductive Passes (link : LinkLibrary) (datagram : Datagram) : ForwardCall → Prop
  | state {header : MessageHeader} {payload : List UInt8} {state : PeerState}
      (toNode : Option NodeId)
      (hheader : link.parseMessageHeader datagram.bytes = (header, payload))
      (hkind : header.messageType = .kAlive ∨ header.messageType = .kResponse)
      (hstate : link.fromPayload header.ident payload = some state) :
      Passes link datagram ⟨if toNode.isSome then .unicast else .broadcast, header.ident,
        withoutEndpoint link datagram.bytes state.endpoint, toNode⟩
  | byebye {header : MessageHeader} {payload : List UInt8} (toNode : Option NodeId)
      (hheader : link.parseMessageHeader datagram.bytes = (header, payload))
      (hkind : header.messageType = .kByeBye) :
      Passes link datagram ⟨.byebye, header.ident, datagram.bytes, toNode⟩
  | measurement (node toNode : NodeId) :
      Passes link datagram
        ⟨if link.isPing datagram.bytes then .measurementPing else .measurementPong, node,
          datagram.bytes, some toNode⟩

theorem passes_of_stateAction {sender : UdpEndpoint} {datagram : Datagram}
    {toNode : Option NodeId} {call : ForwardCall}
    (h : (g.stateAction link sender datagram.bytes toNode).call? = some call) :
    Passes link datagram call := by
  rcases hheader : link.parseMessageHeader datagram.bytes with ⟨header, payload⟩
  simp only [stateAction, hheader] at h
  split at h
  · cases h
  · cases hkind : header.messageType with
    | kAlive | kResponse =>
        simp only [hkind] at h
        cases hstate : link.fromPayload header.ident payload with
        | none => simp [hstate, LanAction.call?] at h
        | some state =>
            simp only [hstate, LanAction.call?, Option.some.injEq] at h
            subst h
            exact .state toNode hheader (by simp [hkind]) hstate
    | kByeBye =>
        simp only [hkind, LanAction.call?, Option.some.injEq] at h
        subst h
        exact .byebye toNode hheader hkind
    | other => simp [hkind, LanAction.call?] at h

theorem passes_of_measurementAction {drawn : NodeId} {sender : UdpEndpoint}
    {datagram : Datagram} {toNode : NodeId} {call : ForwardCall}
    (h : (g.measurementAction link drawn sender datagram.bytes toNode).call? = some call) :
    Passes link datagram call := by
  have hpasses (node : NodeId) := @Passes.measurement link datagram node toNode
  unfold measurementAction at h
  split at h
  all_goals
    rename_i hping _
    simp only [LanAction.call?, Option.some.injEq, reduceCtorEq] at h
  · subst h
    simpa [hping] using hpasses drawn
  · subst h
    simpa [hping] using hpasses _
  · subst h
    simpa [hping] using hpasses _

/-- What a gateway forwards it has read. -/
theorem passes_of_forward {now : TimePoint} {e : LanEvent} {call : ForwardCall}
    (h : .forward call ∈ emit (machine link) g (.lan now e)) :
    ∃ datagram, datagram? e = some datagram ∧ Passes link datagram call := by
  rw [forward_mem_emit_lan] at h
  cases e with
  | multicast sender datagram => exact ⟨datagram, rfl, passes_of_stateAction h⟩
  | stateSocket node sender datagram =>
      simp only [lanAction] at h
      split at h
      · exact ⟨datagram, rfl, passes_of_stateAction h⟩
      · cases h
  | measurementSocket node sender datagram drawn
  | measurementSurrogateSocket node sender datagram drawn =>
      simp only [lanAction] at h
      split at h
      · exact ⟨datagram, rfl, passes_of_measurementAction h⟩
      · cases h
  | localTimer | remoteTimer =>
      simp only [lanAction] at h
      split at h <;> cases h

/-- Nothing goes out on the local network because of what is heard there. -/
theorem send_notMem_emit_lan {now : TimePoint} {e : LanEvent} {source dest : UdpEndpoint}
    {bytes : List UInt8} : .send source bytes dest ∉ emit (machine link) g (.lan now e) := by
  rw [emit_lan]
  cases g.lanAction link now e <;> simp [perform, pruneLocal, pruneRemote]

end TunnelGateway

namespace Region

variable {ι : Type*} [DecidableEq ι] (hosts : Hosts ι) (link : LinkLibrary)

/-- In this step a gateway of `x` reads the datagram from its local network, and makes
the call for it. -/
def Reads (x : ι) (datagram : Datagram) (call : ForwardCall) (r : Region ι)
    (e : RegionEvent ι) : Prop :=
  ∃ i now lan steadyNow g, e = .step x (.lan i now lan steadyNow) ∧
    (r.site x).gateways[i]? = some g ∧ TunnelGateway.datagram? lan = some datagram ∧
    .forward call ∈ emit (TunnelGateway.machine link) g (.lan now lan) ∧
    TunnelGateway.Passes link datagram call

/-- What is sent to another site was read by a gateway. -/
theorem reads_of_spoken {x y : ι} {r : Region ι} {e : RegionEvent ι} {c : ForwardCall}
    (h : c ∈ spoken hosts link x y r e) :
    ∃ datagram call, Reads link x datagram call r e ∧ c = call.onWire := by
  obtain ⟨i, now, lan, steadyNow, g, call, rfl, hg, hcall, -, rfl⟩ :=
    exists_call_of_mem_spoken hosts link h
  obtain ⟨datagram, hdatagram, hpasses⟩ := TunnelGateway.passes_of_forward hcall
  exact ⟨datagram, call, ⟨i, now, lan, steadyNow, g, rfl, hg, hdatagram, hcall, hpasses⟩, rfl⟩

/-- All peers of a tunnel are among the sites. -/
def Enclosed (t : UdpTunnel) : Prop :=
  t.Indexed ∧ ∀ endpoint ∈ t.endpoints, (hosts.owner endpoint).isSome = true

omit [DecidableEq ι] in
/-- Only what a connected site sends is handed over. -/
theorem Enclosed.exists_site {t : UdpTunnel} (h : Enclosed hosts t) {now : TimePoint}
    {sender : UdpEndpoint} {datagram : Datagram} {message : LocalMessage}
    (hcall : message ∈ Site.localCalls (emit UdpTunnel.machine t (.receive now sender datagram))) :
    ∃ x, sender = hosts.address x ∧ t.isConnected sender = true := by
  obtain ⟨o, ho, hmessage⟩ := List.mem_filterMap.mp hcall
  cases o <;> cases hmessage
  obtain ⟨_, _, _, idx, peer, heq, -, -, hpeer, hstate⟩ := UdpTunnel.forwardLocally_mem_emit ho
  obtain ⟨-, rfl, -⟩ := TunnelEvent.receive.inj heq
  have hsome := h.2 sender (h.1.mem_endpoints hpeer).1
  obtain ⟨x, hx⟩ := Option.isSome_iff_exists.mp hsome
  exact ⟨x, (hosts.owner_eq_some.mp hx).symm,
    UdpTunnel.isConnected_eq_true.mpr ⟨idx, peer, hpeer, hstate⟩⟩

/-- What is added or accepted is the address of a site. -/
def Familiar (e : TunnelEvent) : Prop :=
  ∀ endpoint, e = .addPeer endpoint ∨ e = .acceptPeer endpoint →
    (hosts.owner endpoint).isSome = true

omit [DecidableEq ι] in
theorem Enclosed.next {t : UdpTunnel} (h : Enclosed hosts t) {e : TunnelEvent}
    (he : Familiar hosts e) : Enclosed hosts (next UdpTunnel.machine t e) := by
  refine ⟨UdpTunnel.indexed_next h.1 e, ?_⟩
  intro endpoint hmem
  rcases UdpTunnel.endpoints_next t e with heq | ⟨added, hadd, -, heq⟩ | ⟨_, idx, -, -, heq⟩
  · exact h.2 endpoint (heq ▸ hmem)
  · rw [heq, List.mem_append, List.mem_singleton] at hmem
    obtain hmem | rfl := hmem
    · exact h.2 endpoint hmem
    · exact he endpoint hadd
  · rw [heq] at hmem
    exact h.2 endpoint (List.mem_of_mem_eraseIdx hmem)

omit [DecidableEq ι] in
theorem familiar_tunnelEvents {s : Site} {x : ι} {e : SiteEvent}
    (he : Genuine hosts (.step x e)) : ∀ te ∈ s.tunnelEvents link e, Familiar hosts te := by
  intro te hte endpoint hadd
  cases e with
  | tunnel e ios =>
      obtain ⟨-, rfl⟩ := Site.mem_tunnelEvents_tunnel.mp hte
      obtain rfl | rfl := hadd
      · exact he
      · exact he
  | lan i now lan steadyNow =>
      obtain ⟨_, _, -, -, heq⟩ := Site.exists_call_of_mem_tunnelEvents hte
      obtain rfl | rfl := hadd <;> cases heq

theorem enclosed_act {r : Region ι} (h : ∀ z, Enclosed hosts (r.site z).tunnel) {x : ι}
    {e : SiteEvent} (he : ∀ te ∈ (r.site x).tunnelEvents link e, Familiar hosts te) (z : ι) :
    Enclosed hosts ((act hosts link r x e).1.site z).tunnel := by
  by_cases hz : z = x
  · subst hz
    simp only [act, Function.update_self, Site.tunnel_next]
    apply run_invariant_along UdpTunnel.machine (I := Enclosed hosts)
      (P := fun _ te ↦ Familiar hosts te)
    · exact fun _ _ h he ↦ Enclosed.next hosts h he
    · exact h z
    · exact along_of_forall_mem _ (fun _ ↦ he) _
  · simp only [act, Function.update_of_ne hz]
    exact h z

theorem enclosed_next {r : Region ι} (h : ∀ z, Enclosed hosts (r.site z).tunnel)
    {e : RegionEvent ι} (he : Genuine hosts e) (z : ι) :
    Enclosed hosts ((next (machine hosts link) r e).site z).tunnel := by
  cases e with
  | step x e => exact enclosed_act hosts link h (familiar_tunnelEvents hosts link he) z
  | deliver now i ios =>
      simp only [next, machine]
      cases hflight : r.inFlight[i]? with
      | none => exact h z
      | some f =>
          refine enclosed_act hosts link (r := { r with inFlight := r.inFlight.eraseIdx i }) h ?_ z
          intro te hte endpoint hadd
          obtain ⟨-, rfl⟩ := Site.mem_tunnelEvents_tunnel.mp hte
          obtain hadd | hadd := hadd <;> cases hadd
  | lose i | repeated i => exact h z

theorem enclosed_run {initialPeers : ι → List UdpEndpoint} (interfaces : ι → List IpAddress)
    (hpeers : ∀ x, ∀ endpoint ∈ initialPeers x, (hosts.owner endpoint).isSome = true)
    {past : List (RegionEvent ι)} (hgenuine : ∀ e ∈ past, Genuine hosts e) (z : ι) :
    Enclosed hosts
      ((run (machine hosts link) (create initialPeers interfaces) past).site z).tunnel := by
  refine run_invariant_along (machine hosts link)
    (I := fun r : Region ι ↦ ∀ z, Enclosed hosts (r.site z).tunnel)
    (P := fun _ e ↦ Genuine hosts e) ?_ ?_ (along_of_forall_mem _ (fun _ ↦ hgenuine) _) z
  · exact fun _ _ h he ↦ enclosed_next hosts link h he
  · intro x
    refine ⟨UdpTunnel.indexed_create (initialPeers x), ?_⟩
    intro endpoint hmem
    change endpoint ∈ (UdpTunnel.create (initialPeers x)).endpoints at hmem
    rw [UdpTunnel.endpoints_create] at hmem
    exact hpeers x endpoint hmem

/-! ## Runs -/

theorem heard_subset (initialPeers : ι → List UdpEndpoint) (interfaces : ι → List IpAddress)
    (x y : ι) {es : List (RegionEvent ι)} (hgenuine : ∀ e ∈ es, Genuine hosts e) :
    gathered (machine hosts link) (heard hosts x y) (create initialPeers interfaces) es ⊆
      gathered (machine hosts link) (spoken hosts link x y) (create initialPeers interfaces)
        es := by
  have hlaw := Internet.handed_append_underway_subset hosts x y
    (create initialPeers interfaces).tunnels
    (genuine_travels hosts link (r := create initialPeers interfaces) hgenuine)
  rw [← gathered_heard, ← gathered_spoken] at hlaw
  have hnone : Internet.underway x y (create initialPeers interfaces).tunnels = [] := rfl
  rw [hnone, List.nil_append] at hlaw
  exact List.Subset.trans (List.subset_append_left _ _) hlaw

instance {κ : Type*} (hosts : Hosts κ) : ∀ e, Decidable (Genuine hosts e)
  | .step _ (.tunnel (.receive _ sender _) _) =>
      inferInstanceAs (Decidable (hosts.owner sender = none))
  | .step _ (.tunnel (.addPeer endpoint) _) | .step _ (.tunnel (.acceptPeer endpoint) _) =>
      inferInstanceAs (Decidable ((hosts.owner endpoint).isSome = true))
  | .step _ (.lan _ _ e _) => inferInstanceAs (Decidable (∀ datagram ∈
      TunnelGateway.datagram? e, encapsulatedSize .unicast datagram.bytes.length ≤
        kMaxMessageSize))
  | .step _ (.tunnel (.runMaintenance _) _) | .step _ (.tunnel (.removePeer _) _)
  | .step _ (.tunnel (.rejectPeer _) _) | .step _ (.tunnel (.forward ..) _) | .deliver ..
  | .lose _ | .repeated _ => isTrue trivial

/-- Two sites with one interface each. -/
def neighbours : Region (Fin 2) :=
  create (fun x ↦ [localhost (if x = near then 1 else 0)]) (fun _ ↦ [TunnelGateway.kLocalIfAddr])

/-- A state message of the zero node without its endpoint. -/
def zeroState : List UInt8 := LinkLibrary.discoveryMessage 1 5 default []

/-- The sites greet each other, and the node is heard at the first; its message comes in
twice at the second. -/
def heardNode : List (RegionEvent (Fin 2)) :=
  [.step near (.tunnel (.runMaintenance 0) (fun _ ↦ TunnelGateway.openSockets 10000)),
    .deliver 0 0 (fun _ ↦ TunnelGateway.openSockets 10000),
    .deliver 0 0 (fun _ ↦ TunnelGateway.openSockets 10000),
    .deliver 0 0 (fun _ ↦ TunnelGateway.openSockets 10000),
    .step near (.lan 0 0 (.multicast TunnelGateway.kSameSubnetPeer
      ⟨zeroState ++ LinkLibrary.endpointEntry (localhost 20809), by decide⟩) 0),
    .repeated 0, .deliver 0 0 (fun _ ↦ TunnelGateway.openSockets 10000)]

end Region

end LinkExtender
