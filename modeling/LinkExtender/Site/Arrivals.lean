import LinkExtender.Controller
import LinkExtender.Site.Traffic

/-!
# What is announced arrives

State messages to everyone and BYEBYEs are for all gateways of the other sites.  Where
the network loses nothing between two sites, and the gateways of the second can open
their sockets and send, each of them is multicast there once for every time that a
gateway of the first has forwarded it.
-/

namespace LinkExtender

open EventMachine
open Controller (Works)
open Handshake (Flight Hosts Network)
open Internet (InternetEvent near far)
open TunnelGateway (isMulticast)

/-! ## One gateway -/

namespace TunnelGateway

variable {link : LinkLibrary}

/-- Where a gateway of the interface multicasts. -/
def multicastEndpoint (link : LinkLibrary) (interfaceAddress : IpAddress) : Option UdpEndpoint :=
  (create interfaceAddress).localEndpoint ((create interfaceAddress).getBroadcastEndpoint link)

/-- What is multicast for a call by the surrogate of its node. -/
def announced (link : LinkLibrary) (c : ForwardCall) (s : RemoteNodeSurrogate) : List UInt8 :=
  let payload := link.endpointPayload s.measurementSocket
  if c.type = .broadcast ∧ c.message.length + payload.length < kMaxMessageSize then
    c.message ++ payload
  else c.message

/-- The surrogate that the gateway has for the node of the call multicasts the datagram on
the interface's network. -/
def Announces (link : LinkLibrary) (interfaceAddress : IpAddress) (c : ForwardCall)
    (p : TunnelGateway × UdpEndpoint × List UInt8 × UdpEndpoint) : Prop :=
  multicastEndpoint link interfaceAddress = some p.2.2.2 ∧
    ∃ s, p.1.mRemoteNodeIdToRemoteNodeSurrogate.find c.fromNode = some s ∧
      p.2.1 = s.stateSocket ∧ p.2.2.1 = announced link c s

theorem sourceOf_of_isMulticast {type : TunnelMessageType} (htype : isMulticast type = true)
    (s : RemoteNodeSurrogate) : sourceOf s type = s.stateSocket := by
  apply if_neg
  rintro rfl
  cases htype

/-- The message in the buffer may be shorter than its size says, but not where there is
room behind it. -/
theorem length_call_add_lt_iff (message : LocalMessage) (n : ℕ) :
    message.call.message.length + n < kMaxMessageSize ↔ message.size + n < kMaxMessageSize := by
  have hsize := message.buffer.size_eq
  have hlength : message.call.message.length = min message.size kMaxMessageSize := by
    rw [LocalMessage.call, List.length_take, hsize]
  rw [hlength]
  omega

theorem take_outgoing_of_isMulticast {message : LocalMessage}
    (htype : isMulticast message.type = true) (s : RemoteNodeSurrogate) :
    (outgoing link s message).1.bytes.take (outgoing link s message).2 =
      announced link message.call s := by
  have hroom := length_call_add_lt_iff message (link.endpointPayload s.measurementSocket).length
  cases hkind : message.type with
  | broadcast =>
      have hwhole : isSentWhole message.type = false := by rw [hkind]; rfl
      have hcall : message.call.type = .broadcast := hkind
      by_cases hfits : message.size + (link.endpointPayload s.measurementSocket).length <
          kMaxMessageSize
      · rw [take_outgoing hwhole hfits, announced, if_pos ⟨hcall, hroom.mpr hfits⟩]
        rfl
      · rw [take_outgoing_of_full (Or.inr hfits), announced,
          if_neg (fun h ↦ hfits (hroom.mp h.2))]
        rfl
  | byebye =>
      have hcall : message.call.type = .byebye := hkind
      rw [take_outgoing_of_full (Or.inl (by rw [hkind]; rfl)), announced,
        if_neg (fun h ↦ by rw [hcall] at h; cases h.1)]
      rfl
  | _ => simp [hkind, isMulticast] at htype

/-- A gateway that can open its sockets and send multicasts such a message once. -/
theorem exists_announces (g : TunnelGateway) {io : LocalIo} (hio : Works io)
    {message : LocalMessage} (htype : isMulticast message.type = true) :
    ∃ d, datagrams (g.forwardMessageLocally link io message).2.2 = [d] ∧
      Announces link g.localInterfaceAddress message.call
        ((g.forwardMessageLocally link io message).1, d) := by
  have hdest : g.destination link message = some (g.getBroadcastEndpoint link) := by
    unfold destination
    cases hkind : message.type with
    | broadcast | byebye => rfl
    | _ => simp [hkind, isMulticast] at htype
  obtain ⟨dest, hlocal⟩ :=
    Option.isSome_iff_exists.mp (isSome_localEndpoint_getBroadcastEndpoint link g)
  obtain ⟨s, hs⟩ : ∃ s, g.nodeSurrogate io message.fromNode = some s := by
    apply Option.isSome_iff_exists.mp
    rw [nodeSurrogate, Option.isSome_or, hio.1, Bool.or_true]
  have hping : message.type ≠ .measurementPing := by
    rintro hkind
    rw [hkind] at htype
    cases htype
  obtain ⟨hfind, hout⟩ := datagrams_of_routed hping ⟨⟨_, hdest, hlocal⟩, hs, hio.2⟩
  rw [sourceOf_of_isMulticast htype, take_outgoing_of_isMulticast htype] at hout
  exact ⟨_, hout, hlocal, s, hfind, rfl, rfl⟩

end TunnelGateway

/-! ## The interfaces of a site -/

namespace Site

variable {link : LinkLibrary}

theorem localInterfaceAddress_next (s : Site) (e : SiteEvent) (j : ℕ) :
    ((next (machine link) s e).gateways[j]?).map TunnelGateway.localInterfaceAddress =
      (s.gateways[j]?).map TunnelGateway.localInterfaceAddress := by
  rw [getElem?_gateways_next, Option.map_map]
  congr 1
  funext g
  rw [Function.comp_apply]
  cases s.eventAt j e with
  | none => rfl
  | some ge =>
      cases ge with
      | lan now e =>
          rw [Option.elim_some, TunnelGateway.next_lan]
          exact TunnelGateway.localInterfaceAddress_perform ..
      | tunnel io message =>
          rw [Option.elim_some, TunnelGateway.next_tunnel]
          exact (TunnelGateway.forwardMessageLocally_local link g io message).1

end Site

/-! ## One step of the sites -/

namespace Region

variable {ι : Type*} [DecidableEq ι] (hosts : Hosts ι) (link : LinkLibrary)

/-- No call from `x` to `y` is lost or repeated, and `y` is connected with `x` when it
comes in. -/
def Lossless (x y : ι) (r : Region ι) : RegionEvent ι → Prop
  | .lose i | .repeated i => ∀ f ∈ r.inFlight[i]?, ¬ Internet.Carries x y f
  | .deliver _ i _ => ∀ f ∈ r.inFlight[i]?, Internet.Carries x y f →
      (r.site y).tunnel.isConnected (hosts.address x) = true
  | .step .. => True

omit [DecidableEq ι] in
/-- Gateway `j` of `y` can open its sockets and send when a datagram comes in. -/
def SocketsWork (y : ι) (j : ℕ) (r : Region ι) : RegionEvent ι → Prop
  | .step z (.tunnel _ ios) => z = y → Works (ios j)
  | .deliver _ i ios => ∀ f ∈ r.inFlight[i]?, f.dest = y → Works (ios j)
  | .step _ (.lan ..) | .lose _ | .repeated _ => True

/-- Gateway `j` of `y` serves the interface. -/
def Serves (y : ι) (j : ℕ) (interfaceAddress : IpAddress) (r : Region ι) : Prop :=
  ((r.site y).gateways[j]?).map TunnelGateway.localInterfaceAddress = some interfaceAddress

/-- The datagrams that gateway `j` of `y` puts out, each with the gateway as it is then. -/
def putOutBy (y : ι) (j : ℕ) (r : Region ι) (e : RegionEvent ι) :
    List (TunnelGateway × UdpEndpoint × List UInt8 × UdpEndpoint) :=
  (((next (machine hosts link) r e).site y).gateways[j]?).elim [] fun g ↦
    (putOut hosts link y j r e).map (Prod.mk g)

variable {hosts link}

theorem serves_act {y : ι} {j : ℕ} {interfaceAddress : IpAddress} {r : Region ι}
    (h : r.Serves y j interfaceAddress) (z : ι) (e : SiteEvent) :
    (act hosts link r z e).1.Serves y j interfaceAddress := by
  by_cases hy : y = z
  · subst hy
    simp only [Serves, act, Function.update_self, Site.localInterfaceAddress_next]
    exact h
  · simp only [Serves, act, Function.update_of_ne hy]
    exact h

theorem serves_next {y : ι} {j : ℕ} {interfaceAddress : IpAddress} {r : Region ι}
    (h : r.Serves y j interfaceAddress) (e : RegionEvent ι) :
    (next (machine hosts link) r e).Serves y j interfaceAddress := by
  cases e with
  | step z e => exact serves_act h z e
  | deliver now i ios =>
      simp only [next, machine]
      cases hflight : r.inFlight[i]? with
      | none => exact h
      | some f =>
          exact serves_act (r := { r with inFlight := r.inFlight.eraseIdx i }) h f.dest _
  | lose i | repeated i => exact h

/-- What a gateway does with a datagram that comes in is what its site makes of it. -/
theorem exists_site_step {r : Region ι} {e : RegionEvent ι} {y : ι} {j : ℕ}
    (hworks : SocketsWork y j r e) {now : TimePoint} {sender : UdpEndpoint} {datagram : Datagram}
    (hincoming : r.incoming? hosts e = some (y, now, sender, datagram)) :
    ∃ ios : ℕ → LocalIo, Works (ios j) ∧
      (next (machine hosts link) r e).site y =
        next (Site.machine link) (r.site y) (.tunnel (.receive now sender datagram) ios) ∧
      putOut hosts link y j r e = TunnelGateway.datagrams (Site.outputsAt j
        (emit (Site.machine link) (r.site y) (.tunnel (.receive now sender datagram) ios))) := by
  cases e with
  | step z e =>
      cases e with
      | tunnel te ios =>
          cases te with
          | receive now' sender' datagram' =>
              obtain ⟨rfl, rfl, rfl, rfl⟩ := by simpa [incoming?] using hincoming
              refine ⟨ios, hworks rfl, ?_, (putOut_eq rfl z j).trans (if_pos rfl)⟩
              simp [next, machine, act]
          | _ => cases hincoming
      | lan => cases hincoming
  | deliver now' i ios =>
      cases hflight : r.inFlight[i]? with
      | none => simp [incoming?, hflight] at hincoming
      | some f =>
          obtain ⟨rfl, rfl, rfl, rfl⟩ := by simpa [incoming?, hflight] using hincoming
          have hemit : emit (machine hosts link) r (.deliver now' i ios) =
              (emit (Site.machine link) (r.site f.dest)
                (.tunnel (.receive now' (hosts.address f.source) f.datagram) ios)).map
                  (Prod.mk f.dest) := by
            simp [emit, machine, hflight, act]
          refine ⟨ios, hworks f hflight rfl, ?_, (putOut_eq hemit f.dest j).trans (if_pos rfl)⟩
          simp [next, machine, hflight, act]
  | lose | repeated => cases hincoming

/-- Of what a tunnel is handed, gateway `j` multicasts what is for everyone. -/
theorem announces_heard {x y : ι} {j : ℕ} {interfaceAddress : IpAddress} {r : Region ι}
    (h : r.Serves y j interfaceAddress) {e : RegionEvent ι} (hworks : SocketsWork y j r e) :
    List.SublistForall₂ (TunnelGateway.Announces link interfaceAddress)
      ((heard hosts x y r e).filter (fun c ↦ isMulticast c.type))
      (putOutBy hosts link y j r e) := by
  cases hincoming : r.incoming? hosts e with
  | none =>
      rw [heard, hincoming]
      exact .nil
  | some p =>
      obtain ⟨z, now, sender, datagram⟩ := p
      by_cases hends : z = y ∧ sender = hosts.address x
      · obtain ⟨rfl, rfl⟩ := hends
        obtain ⟨g, hg, rfl⟩ := Option.map_eq_some_iff.mp h
        obtain ⟨ios, hio, hsite, hout⟩ :=
          @exists_site_step _ _ _ link _ _ _ _ hworks _ _ _ hincoming
        have hlength := Site.length_localCalls_emit_le (r.site z).tunnel
          (.receive now (hosts.address x) datagram)
        simp only [heard, hincoming, and_self, if_true]
        rw [putOutBy, hsite, hout, Site.getElem?_gateways_next, Site.outputsAt_emit, hg,
          Option.map_some, Option.elim_some, Option.elim_some]
        simp only [Site.eventAt, Site.isExternal, if_true]
        -- the tunnel hands over one message at most
        cases hcalls : Site.localCalls (emit UdpTunnel.machine (r.site z).tunnel
            (.receive now (hosts.address x) datagram)) with
        | nil => exact .nil
        | cons message messages =>
            obtain rfl : messages = [] := by simpa [hcalls] using hlength
            by_cases htype : isMulticast message.type = true
            · obtain ⟨d, hd, hannounces⟩ := g.exists_announces hio htype
              have hcall : isMulticast message.call.type = true := htype
              have hone : TunnelGateway.datagrams
                  (emit (TunnelGateway.machine link) g (.tunnel (ios j) message)) = [d] := hd
              simp only [List.map_cons, List.map_nil, List.filter_cons, hcall, if_true,
                List.filter_nil, List.head?_cons, Option.map_some, Option.elim_some, hone]
              exact .cons hannounces .nil
            · have hcall : ¬ isMulticast message.call.type = true := htype
              simp only [List.map_cons, List.map_nil, List.filter_cons, hcall, if_false,
                Bool.false_eq_true, List.filter_nil]
              exact .nil
      · simp only [heard, hincoming, hends, if_false]
        exact .nil

/-! ## Runs -/

theorem lossless_travels {x y : ι} {r : Region ι} {es : List (RegionEvent ι)}
    (h : Along (machine hosts link) (Lossless hosts x y) r es) :
    Along (Internet.machine hosts) (Internet.Lossless hosts x y) r.tunnels
      (travels hosts link r es) := by
  refine along_translation (tunnels_next hosts link) (fun r e he ↦ ?_) h
  cases e with
  | step z e =>
      refine along_of_forall_mem _ (fun n e' he' ↦ ?_) _
      obtain ⟨te, -, rfl⟩ := List.mem_map.mp he'
      trivial
  | deliver | lose | repeated => exact ⟨he, trivial⟩

/-- Once nothing is on its way any more, all that was forwarded has been handed over. -/
theorem heard_perm_spoken {x y : ι} {r : Region ι} (hnone : Internet.underway x y r.tunnels = [])
    {es : List (RegionEvent ι)} (hgenuine : ∀ e ∈ es, Genuine hosts e)
    (hlossless : Along (machine hosts link) (Lossless hosts x y) r es)
    (hrest : Internet.underway x y (run (machine hosts link) r es).tunnels = []) :
    (gathered (machine hosts link) (heard hosts x y) r es).Perm
      (gathered (machine hosts link) (spoken hosts link x y) r es) := by
  have hall : Along (Internet.machine hosts)
      (fun n e ↦ Internet.Genuine hosts e ∧ Internet.Lossless hosts x y n e) r.tunnels
      (travels hosts link r es) :=
    (along_and ..).mpr ⟨along_of_forall_mem _
      (fun _ ↦ genuine_travels hosts link hgenuine) _, lossless_travels hlossless⟩
  have hperm := congruent_perm.conserved (Internet.machine hosts) (Internet.offered hosts x y)
    (Internet.handed hosts x y) (Internet.underway x y) (I := fun _ ↦ True)
    (fun _ _ _ _ ↦ trivial) (fun _ _ _ he ↦ Internet.perm_of_lossless hosts he.1 he.2) trivial
    hall
  have htunnels : (run (machine hosts link) r es).tunnels =
      run (Internet.machine hosts) r.tunnels (travels hosts link r es) :=
    run_translation (tunnels_next hosts link) r es
  rw [htunnels] at hrest
  rwa [← gathered_heard, ← gathered_spoken, hnone, hrest, List.nil_append, List.append_nil]
    at hperm

/-- In a run that loses nothing from `x` to `y`, and once nothing is on its way any more,
every gateway of `y` has multicast all that gateways of `x` have forwarded to everyone. -/
theorem announcements_arrive {initialPeers : ι → List UdpEndpoint}
    (interfaces : ι → List IpAddress) {x y : ι} {j : ℕ} {interfaceAddress : IpAddress}
    (hinterface : (interfaces y)[j]? = some interfaceAddress) {es : List (RegionEvent ι)}
    (hgenuine : ∀ e ∈ es, Genuine hosts e)
    (hlossless : Along (machine hosts link) (Lossless hosts x y)
      (create initialPeers interfaces) es)
    (hworks : Along (machine hosts link) (SocketsWork y j) (create initialPeers interfaces) es)
    (hrest : Internet.underway x y
      (run (machine hosts link) (create initialPeers interfaces) es).tunnels = []) :
    ∃ calls : List ForwardCall,
      calls.Perm ((gathered (machine hosts link) (spoken hosts link x y)
        (create initialPeers interfaces) es).filter (fun c ↦ isMulticast c.type)) ∧
      List.SublistForall₂ (TunnelGateway.Announces link interfaceAddress) calls
        (gathered (machine hosts link) (putOutBy hosts link y j)
          (create initialPeers interfaces) es) := by
  have hserves : (create initialPeers interfaces).Serves y j interfaceAddress := by
    simp [Serves, create, Site.create, hinterface, TunnelGateway.create]
  have hperm := heard_perm_spoken rfl hgenuine hlossless hrest
  refine ⟨_, hperm.filter _, ?_⟩
  rw [filter_gathered]
  exact sublistForall₂_gathered (machine hosts link) (I := Serves y j interfaceAddress)
    (fun _ e h _ ↦ serves_next h e) (fun _ _ h hworks ↦ announces_heard h hworks) hserves hworks

instance {κ : Type*} [DecidableEq κ] (hosts : Hosts κ) (x y : κ) (r : Region κ) :
    ∀ e, Decidable (Lossless hosts x y r e)
  | .lose i | .repeated i =>
      inferInstanceAs (Decidable (∀ f ∈ r.inFlight[i]?, ¬ Internet.Carries x y f))
  | .deliver _ i _ => inferInstanceAs (Decidable (∀ f ∈ r.inFlight[i]?,
      Internet.Carries x y f → (r.site y).tunnel.isConnected (hosts.address x) = true))
  | .step .. => isTrue trivial

instance (io : LocalIo) : Decidable (Works io) := inferInstanceAs (Decidable (_ ∧ _))

instance {κ : Type*} [DecidableEq κ] (y : κ) (j : ℕ) (r : Region κ) :
    ∀ e, Decidable (SocketsWork y j r e)
  | .step z (.tunnel _ ios) => inferInstanceAs (Decidable (z = y → Works (ios j)))
  | .deliver _ i ios =>
      inferInstanceAs (Decidable (∀ f ∈ r.inFlight[i]?, f.dest = y → Works (ios j)))
  | .step _ (.lan ..) | .lose _ | .repeated _ => isTrue trivial

/-- The message of the node that is heard at the first site is multicast at the second. -/
theorem announcements_arrive_neighbours :
    ∃ calls : List ForwardCall,
      calls.Perm ((gathered (machine Handshake.twoHosts .version1)
        (spoken Handshake.twoHosts .version1 near far) neighbours heardOnce).filter
          (fun c ↦ isMulticast c.type)) ∧
      List.SublistForall₂ (TunnelGateway.Announces .version1 TunnelGateway.kLocalIfAddr) calls
        (gathered (machine Handshake.twoHosts .version1)
          (putOutBy Handshake.twoHosts .version1 far 0) neighbours heardOnce) :=
  announcements_arrive (fun _ ↦ [TunnelGateway.kLocalIfAddr]) rfl (by decide +kernel)
    (by decide +kernel) (by decide +kernel) (by decide +kernel)

example : (gathered (machine Handshake.twoHosts .version1)
    (spoken Handshake.twoHosts .version1 near far) neighbours heardOnce).length = 1 := by
  decide +kernel

end Region

end LinkExtender
