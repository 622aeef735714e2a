import LinkExtender.Site.Traffic
import LinkExtender.UdpTunnel.Routing

/-!
# Where messages to one node go

A unicast or a ping is sent to one site only.  Gateways of that site have read a message
of the node before, as long as no peer is removed in front of a recorded position.
-/

namespace LinkExtender

open EventMachine
open Handshake (Hosts Network)
open Internet (InternetEvent near far)

/-! ## What a tunnel has learnt -/

namespace UdpTunnel

/-- A node is recorded for the sender of one of its messages. -/
theorem find_observe {t : UdpTunnel} {r : Reference} {e : TunnelEvent} {node : NodeId}
    {dest : UdpEndpoint} (h : (observe r t e).find node = some dest) :
    r.find node = some dest ∨ ∃ now datagram message, e = .receive now dest datagram ∧
      messageOf datagram = some message ∧ message.type.isControl = false ∧
      message.type ≠ .byebye ∧ message.fromNode = node ∧ t.isConnected dest = true := by
  have herased {q : UdpEndpoint → Bool} (h : (r.eraseValues q).find node = some dest) :
      r.find node = some dest :=
    ((PartialMap.find_eraseValues_eq_some ..).mp h).1
  cases e with
  | receive now sender datagram =>
      simp only [observe] at h
      cases hmessage : messageOf datagram with
      | none =>
          rw [hmessage] at h
          exact Or.inl h
      | some message =>
          simp only [hmessage] at h
          cases htype : message.type with
          | tunnelHello | tunnelKeepalive =>
              simp only [htype] at h
              exact Or.inl h
          | tunnelBye =>
              simp only [htype] at h
              exact Or.inl (herased h)
          | byebye =>
              simp only [htype] at h
              split at h
              · exact Or.inl ((PartialMap.find_erase_eq_some ..).mp h).2
              · exact Or.inl h
          | _ =>
              simp only [htype] at h
              split at h
              · rename_i hconnected
                rw [PartialMap.find_emplace] at h
                split at h
                · rename_i hnode
                  obtain rfl := Option.some.inj h
                  exact Or.inr ⟨now, datagram, message, rfl, hmessage, by rw [htype]; rfl,
                    by simp [htype], hnode.1.symm, hconnected⟩
                · exact Or.inl h
              · exact Or.inl h
  | runMaintenance now =>
      simp only [observe] at h
      split at h
      · exact Or.inl (herased h)
      · exact Or.inl h
  | removePeer endpoint => exact Or.inl (herased h)
  | _ => exact Or.inl h

theorem map_call_localCalls (out : List TunnelOutput) :
    (Site.localCalls out).map LocalMessage.call = out.filterMap Internet.localCall? := by
  rw [Site.localCalls, List.map_filterMap]
  apply List.filterMap_congr
  intro o _
  cases o <;> rfl

/-- The routes are known, and stay with the peers that they were learnt from. -/
def Learnt (t : UdpTunnel) (known : NodeId → UdpEndpoint → Prop) : Prop :=
  ∃ r : Reference, t.Routed r ∧ ∀ node dest, r.find node = some dest → known node dest

variable {t : UdpTunnel} {known known' : NodeId → UdpEndpoint → Prop}

theorem Learnt.route (h : t.Learnt known) {node : NodeId} {dest : UdpEndpoint}
    (hroute : t.route node = some dest) : known node dest := by
  obtain ⟨r, hrouted, hknown⟩ := h
  rw [routesAs_iff.mp hrouted.routesAs] at hroute
  exact hknown node dest hroute

theorem Learnt.mono (h : t.Learnt known)
    (hmore : ∀ node dest, known node dest → known' node dest) : t.Learnt known' := by
  obtain ⟨r, hrouted, hknown⟩ := h
  exact ⟨r, hrouted, fun node dest hfind ↦ hmore node dest (hknown node dest hfind)⟩

theorem Learnt.next (h : t.Learnt known) {e : TunnelEvent} (hkeeps : t.KeepsPositions e)
    (hmore : ∀ node dest, known node dest → known' node dest)
    (hnew : ∀ now dest datagram, e = .receive now dest datagram →
      ∀ c ∈ (Site.localCalls (emit machine t e)).map LocalMessage.call, c.type ≠ .byebye →
        known' c.fromNode dest) :
    (EventMachine.next machine t e).Learnt known' := by
  obtain ⟨r, hrouted, hknown⟩ := h
  refine ⟨observe r t e, routed_next hrouted hkeeps, ?_⟩
  intro node dest hfind
  rcases find_observe hfind with hfind | ⟨now, datagram, message, rfl, hmessage, hdata, hbyebye,
    rfl, hconnected⟩
  · exact hmore node dest (hknown node dest hfind)
  · refine hnew now dest datagram rfl message.call ?_ hbyebye
    rw [map_call_localCalls, Internet.localCalls_receive, if_pos hconnected,
      Internet.readCall_of_data hmessage hdata]
    exact List.mem_singleton_self _

end UdpTunnel

/-! ## One step of the sites -/

namespace Region

variable {ι : Type*} [DecidableEq ι] (hosts : Hosts ι) (link : LinkLibrary)

omit [DecidableEq ι] in
/-- No peer is removed in front of a recorded position. -/
def KeepsPositions (r : Region ι) : RegionEvent ι → Prop
  | .step x (.tunnel e _) => (r.site x).tunnel.KeepsPositions e
  | _ => True

/-- A message to one node goes where the sender's tunnel routes the node. -/
theorem route_of_spoken {x y : ι} {r : Region ι} {e : RegionEvent ι} {c : ForwardCall}
    (h : c ∈ spoken hosts link x y r e) (hrouted : c.type.isRouted = true) {node : NodeId}
    (hnode : c.toNode = some node) :
    (r.site x).tunnel.route node = some (hosts.address y) := by
  obtain ⟨_, _, _, _, _, call, -, -, -, hmem, rfl⟩ := exists_call_of_mem_spoken hosts link h
  have hto : call.toNode = some node := by
    simp only [ForwardCall.onWire] at hnode
    split at hnode
    · exact hnode
    · cases hnode
  simp only [ForwardCall.onWire] at hrouted
  simp only [UdpTunnel.recipients, hrouted, if_true, hto] at hmem
  exact Option.mem_def.mp (Option.mem_toList.mp hmem)

theorem exists_heard {r : Region ι} {e : RegionEvent ι} {x : ι}
    (h : Enclosed hosts (r.site x).tunnel) {now : TimePoint} {sender : UdpEndpoint}
    {datagram : Datagram} (hincoming : r.incoming? hosts e = some (x, now, sender, datagram))
    {c : ForwardCall} (hc : c ∈ (Site.localCalls (emit UdpTunnel.machine (r.site x).tunnel
      (.receive now sender datagram))).map LocalMessage.call) :
    ∃ y, sender = hosts.address y ∧ c ∈ heard hosts y x r e := by
  obtain ⟨message, hmessage, -⟩ := List.mem_map.mp hc
  obtain ⟨y, rfl, -⟩ := h.exists_site hosts hmessage
  refine ⟨y, rfl, ?_⟩
  simpa only [heard, hincoming, and_self, if_true] using hc

section Step

variable {known known' : ι → NodeId → UdpEndpoint → Prop}

omit [DecidableEq ι] in
theorem receive_mem_tunnelEvents {s : Site} {e : SiteEvent} {now : TimePoint}
    {sender : UdpEndpoint} {datagram : Datagram}
    (h : .receive now sender datagram ∈ s.tunnelEvents link e) :
    ∃ ios, e = .tunnel (.receive now sender datagram) ios := by
  cases e with
  | tunnel e ios =>
      obtain ⟨-, rfl⟩ := Site.mem_tunnelEvents_tunnel.mp h
      exact ⟨ios, rfl⟩
  | lan i now e steadyNow =>
      obtain ⟨_, _, -, -, heq⟩ := Site.exists_call_of_mem_tunnelEvents h
      cases heq

/-- What the tunnels have learnt, after an event of one site. -/
theorem learnt_act {r : Region ι} (h : ∀ x, (r.site x).tunnel.Learnt (known x)) {z : ι}
    {e : SiteEvent}
    (hkeeps : ∀ te ∈ (r.site z).tunnelEvents link e, (r.site z).tunnel.KeepsPositions te)
    (hmore : ∀ x node dest, known x node dest → known' x node dest)
    (hnew : ∀ now dest datagram, .receive now dest datagram ∈ (r.site z).tunnelEvents link e →
      ∀ c ∈ (Site.localCalls (emit UdpTunnel.machine (r.site z).tunnel
        (.receive now dest datagram))).map LocalMessage.call, c.type ≠ .byebye →
          known' z c.fromNode dest) (x : ι) :
    ((act hosts link r z e).1.site x).tunnel.Learnt (known' x) := by
  by_cases hx : x = z
  · subst hx
    simp only [act, Function.update_self, Site.tunnel_next]
    rcases Site.tunnelEvents_cases link (r.site x) e with hevents | ⟨te, hevents⟩
    · rw [hevents]
      exact (h x).mono (hmore x)
    · rw [hevents] at hkeeps hnew ⊢
      apply UdpTunnel.Learnt.next (h x) (hkeeps te (List.mem_singleton_self te)) (hmore x)
      rintro now dest datagram rfl
      exact hnew now dest datagram (List.mem_singleton_self _)
  · simp only [act, Function.update_of_ne hx]
    exact (h x).mono (hmore x)

theorem learnt_next {r : Region ι} (henclosed : ∀ x, Enclosed hosts (r.site x).tunnel)
    (h : ∀ x, (r.site x).tunnel.Learnt (known x)) {e : RegionEvent ι}
    (hkeeps : r.KeepsPositions e)
    (hmore : ∀ x node dest, known x node dest → known' x node dest)
    (hnew : ∀ x y, ∀ c ∈ heard hosts y x r e, c.type ≠ .byebye →
      known' x c.fromNode (hosts.address y)) (x : ι) :
    ((next (machine hosts link) r e).site x).tunnel.Learnt (known' x) := by
  cases e with
  | step z e =>
      refine learnt_act hosts link h (fun te hte ↦ ?_) hmore ?_ x
      · cases e with
        | tunnel e ios =>
            obtain ⟨-, rfl⟩ := Site.mem_tunnelEvents_tunnel.mp hte
            exact hkeeps
        | lan i now e steadyNow =>
            obtain ⟨_, _, -, -, rfl⟩ := Site.exists_call_of_mem_tunnelEvents hte
            trivial
      · intro now dest datagram hmem c hc hbyebye
        obtain ⟨ios, rfl⟩ := receive_mem_tunnelEvents link hmem
        obtain ⟨y, rfl, hheard⟩ := exists_heard hosts
          (e := .step z (.tunnel (.receive now dest datagram) ios)) (henclosed z) rfl hc
        exact hnew z y c hheard hbyebye
  | deliver now i ios =>
      simp only [next, machine]
      cases hflight : r.inFlight[i]? with
      | none => exact (h x).mono (hmore x)
      | some f =>
          refine learnt_act hosts link (r := { r with inFlight := r.inFlight.eraseIdx i }) h
            (fun te hte ↦ ?_) hmore ?_ x
          · obtain rfl : te = .receive now (hosts.address f.source) f.datagram := by
              simpa [Site.tunnelEvents, Site.isExternal] using hte
            trivial
          · intro now' dest datagram hmem c hc hbyebye
            obtain ⟨ios, heq⟩ := receive_mem_tunnelEvents link hmem
            cases heq
            obtain ⟨y, heq, hheard⟩ := exists_heard hosts (e := .deliver now i ios)
              (henclosed f.dest) (by simp [incoming?, hflight]) hc
            rw [heq]
            exact hnew f.dest y c hheard hbyebye
  | lose i | repeated i => exact (h x).mono (hmore x)

end Step

/-! ## Runs -/

section Runs

variable (initialPeers : ι → List UdpEndpoint) (interfaces : ι → List IpAddress)

/-- `dest` is the address of a site from which a message of the node has come in. -/
def Known (past : List (RegionEvent ι)) (x : ι) (node : NodeId) (dest : UdpEndpoint) : Prop :=
  ∃ y, dest = hosts.address y ∧
    ∃ c ∈ gathered (machine hosts link) (heard hosts y x) (create initialPeers interfaces) past,
      c.fromNode = node ∧ c.type ≠ .byebye

theorem learnt_run
    (hpeers : ∀ x, ∀ endpoint ∈ initialPeers x, (hosts.owner endpoint).isSome = true)
    {past : List (RegionEvent ι)} (hgenuine : ∀ e ∈ past, Genuine hosts e)
    (hkeeps : Along (machine hosts link) KeepsPositions (create initialPeers interfaces) past)
    (x : ι) :
    ((run (machine hosts link) (create initialPeers interfaces) past).site x).tunnel.Learnt
      (Known hosts link initialPeers interfaces past x) := by
  induction past using List.reverseRecOn generalizing x with
  | nil =>
      refine ⟨PartialMap.empty, UdpTunnel.routed_create (initialPeers x), ?_⟩
      intro node dest hfind
      rw [PartialMap.find_empty] at hfind
      cases hfind
  | append_singleton past e ih =>
      obtain ⟨hgenuine, -⟩ := List.forall_mem_append.mp hgenuine
      obtain ⟨hkeeps, hlast⟩ := (along_concat ..).mp hkeeps
      have henclosed := enclosed_run hosts link interfaces hpeers hgenuine
      rw [run_concat]
      refine learnt_next hosts link henclosed (ih hgenuine hkeeps) hlast ?_ ?_ x
      · rintro x node dest ⟨y, hy, c, hc, hnode⟩
        refine ⟨y, hy, c, ?_, hnode⟩
        rw [gathered_concat]
        exact List.mem_append_left _ hc
      · intro x y c hc hbyebye
        refine ⟨y, rfl, c, ?_, rfl, hbyebye⟩
        rw [gathered_concat]
        exact List.mem_append_right _ hc

variable {initialPeers}

/-- In every run, a unicast or a ping for a node is sent to a site where a gateway has read
a message of the node before. -/
theorem reads_of_routed
    (hpeers : ∀ x, ∀ endpoint ∈ initialPeers x, (hosts.owner endpoint).isSome = true)
    {past : List (RegionEvent ι)} (hgenuine : ∀ e ∈ past, Genuine hosts e)
    (hkeeps : Along (machine hosts link) KeepsPositions (create initialPeers interfaces) past)
    {e : RegionEvent ι} {x y : ι} {c : ForwardCall}
    (hspoken : c ∈ spoken hosts link x y
      (run (machine hosts link) (create initialPeers interfaces) past) e)
    (hrouted : c.type.isRouted = true) {node : NodeId} (hnode : c.toNode = some node) :
    ∃ before u after datagram call, past = before ++ u :: after ∧
      Reads link y datagram call
        (run (machine hosts link) (create initialPeers interfaces) before) u ∧
      call.fromNode = node ∧ call.type ≠ .byebye := by
  have hroute := route_of_spoken hosts link hspoken hrouted hnode
  obtain ⟨y', haddress, c', hheard, rfl, hbyebye⟩ :=
    (learnt_run hosts link initialPeers interfaces hpeers hgenuine hkeeps x).route hroute
  obtain rfl := Hosts.address_injective hosts haddress
  have hearlier := heard_subset hosts link initialPeers interfaces y x hgenuine hheard
  obtain ⟨before, u, after, rfl, hu⟩ := mem_gathered.mp hearlier
  obtain ⟨datagram, call, hreads, rfl⟩ := reads_of_spoken hosts link hu
  exact ⟨before, u, after, datagram, call, rfl, hreads, rfl, hbyebye⟩

end Runs

/-- Another node, at the second site. -/
def answering : NodeId := ⟨List.replicate 8 2, rfl⟩

/-- It answers the node that was heard at the first. -/
def answer : RegionEvent (Fin 2) :=
  .step far (.lan 0 0 (.stateSocket default TunnelGateway.kSameSubnetPeer
    ⟨LinkLibrary.discoveryMessage 2 5 answering (LinkLibrary.endpointEntry (localhost 20810)),
      by decide⟩) 0)

theorem reads_of_routed_neighbours :
    ∃ before u after datagram call, heardOnce = before ++ u :: after ∧
      Reads .version1 near datagram call
        (run (machine Handshake.twoHosts .version1) neighbours before) u ∧
      call.fromNode = default ∧ call.type ≠ .byebye := by
  refine reads_of_routed Handshake.twoHosts .version1 (fun _ ↦ [TunnelGateway.kLocalIfAddr])
    (e := answer) (x := far)
    (c := ⟨.unicast, answering, LinkLibrary.discoveryMessage 2 5 answering [], some default⟩)
    (by decide) (by decide +kernel) ?_ (by decide +kernel) rfl rfl
  apply along_of_forall_mem
  intro r e he
  simp only [heardOnce, heardNode, List.eraseIdx, List.mem_cons, List.not_mem_nil, or_false] at he
  rcases he with rfl | rfl | rfl | rfl | rfl | rfl <;> trivial

end Region

end LinkExtender
