import LinkExtender.Site.Overrun
import LinkExtender.UdpTunnel.Delivery

/-!
# Sites on a network

Any number of whole sites, each a tunnel with its gateways, on a network that may lose,
repeat and reorder datagrams and has strangers on it.  A run of the sites is a run of
their tunnels, in which the gateways of a site are handed what its tunnel is handed.
-/

namespace LinkExtender

open EventMachine
open Handshake (Flight Hosts Network)
open Internet (InternetEvent)

/-- What a call is at the other end: only some of the types name their target. -/
def ForwardCall.onWire (call : ForwardCall) : ForwardCall :=
  { call with toNode := if call.type.hasToNode then call.toNode else none }

/-- The call of `forward` that an output of a gateway is. -/
def GatewayOutput.call? : GatewayOutput → Option ForwardCall
  | .forward call => some call
  | _ => none

/-! ## What a site does, seen from its tunnel -/

namespace TunnelGateway

variable {link : LinkLibrary}

theorem length_calls_perform (g : TunnelGateway) (now : TimePoint) (action : LanAction) :
    ((g.perform link now action).2.filterMap GatewayOutput.call?).length =
      if action.call?.isSome then 1 else 0 := by
  cases action with
  | expireLocal | expireRemote =>
      simp [perform, LanAction.call?, GatewayOutput.call?, pruneLocal, pruneRemote,
        List.filterMap_map, Function.comp_def]
  | _ => rfl

/-- A datagram is forwarded once, or not at all. -/
theorem length_calls_le (g : TunnelGateway) (now : TimePoint) (e : LanEvent) :
    ((emit (machine link) g (.lan now e)).filterMap GatewayOutput.call?).length ≤
      if (datagram? e).isSome then 1 else 0 := by
  rw [emit_lan, length_calls_perform]
  cases hcall : (g.lanAction link now e).call? with
  | none => simp
  | some call =>
      obtain ⟨-, datagram, hdatagram, -⟩ := call?_spec hcall
      rw [Option.mem_def.mp hdatagram]
      rfl

end TunnelGateway

namespace Site

variable {link : LinkLibrary}

/-- What the tunnel of a site sends, and the requests that it passes on. -/
def tunnelOutputs (out : List SiteOutput) : List TunnelOutput :=
  out.filterMap fun
    | .tunnel o => some o
    | .gateway .. => none

/-- A call of `forward`, as an event of the tunnel. -/
def forwardEvent? (steadyNow : TimePoint) : GatewayOutput → Option TunnelEvent
  | .forward call => some (.forward steadyNow call.type call.fromNode call.message call.toNode)
  | _ => none

def tunnelEvents (link : LinkLibrary) (s : Site) : SiteEvent → List TunnelEvent
  | .tunnel e _ => if isExternal e then [e] else []
  | .lan i now e steadyNow =>
      (s.gateways[i]?).elim [] fun g ↦
        (emit (TunnelGateway.machine link) g (.lan now e)).filterMap (forwardEvent? steadyNow)

theorem filterMap_forwardEvent? (steadyNow : TimePoint) (out : List GatewayOutput) :
    out.filterMap (forwardEvent? steadyNow) = (out.filterMap GatewayOutput.call?).map
      (fun call ↦ .forward steadyNow call.type call.fromNode call.message call.toNode) := by
  rw [List.map_filterMap]
  apply List.filterMap_congr
  intro o _
  cases o <;> rfl

theorem mem_tunnelEvents_tunnel {s : Site} {e te : TunnelEvent} {ios : ℕ → LocalIo} :
    te ∈ s.tunnelEvents link (.tunnel e ios) ↔ isExternal e = true ∧ te = e := by
  simp [tunnelEvents]

theorem exists_call_of_mem_tunnelEvents {s : Site} {i : ℕ} {now steadyNow : TimePoint}
    {lan : LanEvent} {te : TunnelEvent}
    (h : te ∈ s.tunnelEvents link (.lan i now lan steadyNow)) :
    ∃ g call, s.gateways[i]? = some g ∧
      .forward call ∈ emit (TunnelGateway.machine link) g (.lan now lan) ∧
      te = .forward steadyNow call.type call.fromNode call.message call.toNode := by
  cases hg : s.gateways[i]? with
  | none => simp [tunnelEvents, hg] at h
  | some g =>
      simp only [tunnelEvents, hg, Option.elim_some] at h
      obtain ⟨o, ho, hevent⟩ := List.mem_filterMap.mp h
      cases o <;> cases hevent
      exact ⟨g, _, rfl, ho, rfl⟩

@[simp] theorem tunnelOutputs_append (xs ys : List SiteOutput) :
    tunnelOutputs (xs ++ ys) = tunnelOutputs xs ++ tunnelOutputs ys :=
  List.filterMap_append

@[simp] theorem tunnelOutputs_map_gateway (i : ℕ) (out : List GatewayOutput) :
    tunnelOutputs (out.map (.gateway i)) = [] := by
  simp [tunnelOutputs]

@[simp] theorem tunnelOutputs_map_tunnel (out : List TunnelOutput) :
    tunnelOutputs (out.map .tunnel) = out := by
  simp [tunnelOutputs, List.filterMap_map]

theorem tunnelOutputs_forwardLocally (ios : ℕ → LocalIo) (i : ℕ) (gs : List TunnelGateway)
    (message : LocalMessage) :
    tunnelOutputs (forwardLocally link ios i gs message).2 = [] := by
  induction gs generalizing i message with
  | nil => rfl
  | cons g gs ih =>
      simp only [forwardLocally, tunnelOutputs_append, tunnelOutputs_map_gateway, ih,
        List.append_nil]

/-- Of the outputs of the tunnel only the calls of `forward_locally` are carried out at
the site. -/
theorem tunnelOutputs_deliver (ios : ℕ → LocalIo) (gs : List TunnelGateway)
    (out : List TunnelOutput) :
    tunnelOutputs (deliver link ios gs out).2 =
      out.filter (fun o ↦ (localMessage? o).isNone) := by
  induction out generalizing gs with
  | nil => rfl
  | cons o out ih =>
      cases o with
      | forwardLocally message =>
          simp only [deliver, tunnelOutputs_append, tunnelOutputs_forwardLocally, ih,
            List.nil_append]
          rfl
      | send dest bytes => exact congrArg (_ :: ·) (ih gs)
      | unknownPeer endpoint => exact congrArg (_ :: ·) (ih gs)

/-- The calls that a gateway makes run on the tunnel one after the other. -/
theorem forwardAll_eq (t : UdpTunnel) (steadyNow : TimePoint) (out : List GatewayOutput) :
    forwardAll t steadyNow out =
      (run UdpTunnel.machine t (out.filterMap (forwardEvent? steadyNow)),
        outputs UdpTunnel.machine t (out.filterMap (forwardEvent? steadyNow))) := by
  induction out generalizing t with
  | nil => rfl
  | cons o out ih =>
      cases o with
      | forward call => simp only [forwardAll, ih]; rfl
      | _ => exact ih t

theorem tunnel_next (s : Site) (e : SiteEvent) :
    (next (machine link) s e).tunnel =
      run UdpTunnel.machine s.tunnel (s.tunnelEvents link e) := by
  cases e with
  | tunnel e ios =>
      by_cases hexternal : isExternal e = true
      · rw [next, machine_tunnel hexternal]
        simp [tunnelEvents, hexternal]
      · simp [next, machine, tunnelEvents, hexternal]
  | lan i now e steadyNow =>
      cases hg : s.gateways[i]? with
      | none => simp [next, machine, tunnelEvents, hg]
      | some g =>
          rw [next, machine_lan hg, forwardAll_eq]
          simp [tunnelEvents, hg]

end Site

/-! ## The machine -/

structure Region (ι : Type*) where
  site : ι → Site
  inFlight : List (Flight ι)

inductive RegionEvent (ι : Type*) where
  /-- What happens at a site, a datagram of a stranger included. -/
  | step (x : ι) (e : SiteEvent)
  | deliver (now : TimePoint) (flight : ℕ) (ios : ℕ → LocalIo)
  | lose (flight : ℕ)
  | repeated (flight : ℕ)

namespace Region

variable {ι : Type*}

def create (initialPeers : ι → List UdpEndpoint) (interfaces : ι → List IpAddress) :
    Region ι where
  site := fun x ↦ Site.create (initialPeers x) (interfaces x)
  inFlight := []

/-- The tunnels of the sites, on the same network. -/
def tunnels (r : Region ι) : Network ι where
  tunnel := fun x ↦ (r.site x).tunnel
  inFlight := r.inFlight

variable [DecidableEq ι] (hosts : Hosts ι) (link : LinkLibrary)

def act (r : Region ι) (x : ι) (e : SiteEvent) : Region ι × List (ι × SiteOutput) :=
  ({ site := Function.update r.site x (next (Site.machine link) (r.site x) e)
     inFlight := r.inFlight ++
       hosts.flights x (Site.tunnelOutputs (emit (Site.machine link) (r.site x) e)) },
    (emit (Site.machine link) (r.site x) e).map (Prod.mk x))

def machine : Machine (Region ι) (RegionEvent ι) (ι × SiteOutput)
  | r, .step x e => act hosts link r x e
  | r, .deliver now i ios =>
      match r.inFlight[i]? with
      | some f =>
          act hosts link { r with inFlight := r.inFlight.eraseIdx i } f.dest
            (.tunnel (.receive now (hosts.address f.source) f.datagram) ios)
      | none => (r, [])
  | r, .lose i => ({ r with inFlight := r.inFlight.eraseIdx i }, [])
  | r, .repeated i => ({ r with inFlight := r.inFlight ++ r.inFlight[i]?.toList }, [])

omit [DecidableEq ι] in
/-- What an event is for the tunnels. -/
def tunnelEvents (r : Region ι) : RegionEvent ι → List (InternetEvent ι)
  | .step x e => ((r.site x).tunnelEvents link e).map (.act x)
  | .deliver now i _ => [.deliver now i]
  | .lose i => [.lose i]
  | .repeated i => [.repeated i]

omit [DecidableEq ι] in
/-- The datagram that comes in with an event, and where. -/
def incoming? (r : Region ι) : RegionEvent ι → Option (ι × TimePoint × UdpEndpoint × Datagram)
  | .step y (.tunnel (.receive now sender datagram) _) => some (y, now, sender, datagram)
  | .deliver now i _ =>
      (r.inFlight[i]?).map (fun f ↦ (f.dest, now, hosts.address f.source, f.datagram))
  | _ => none

/-- What the gateways of `y` are handed for a datagram from the address of `x`. -/
def heard (x y : ι) (r : Region ι) (e : RegionEvent ι) : List ForwardCall :=
  match r.incoming? hosts e with
  | some (z, now, sender, datagram) =>
      if z = y ∧ sender = hosts.address x then
        (Site.localCalls (emit UdpTunnel.machine (r.site y).tunnel
          (.receive now sender datagram))).map LocalMessage.call
      else []
  | none => []

omit [DecidableEq ι] in
/-- What a tunnel sends to an endpoint for a call: one copy for each entry of its table that
it goes to. -/
def copies (t : UdpTunnel) (endpoint : UdpEndpoint) (steadyNow : TimePoint)
    (call : ForwardCall) : List ForwardCall :=
  if ¬ t.Suppressed steadyNow call.type call.fromNode call.message ∧
      (encapsulate ⟨call.fromNode, call.type, call.toNode, 0⟩ call.message).isSome = true ∧
      call.type.isControl = false then
    List.replicate ((t.recipients call.type call.toNode).count endpoint) call.onWire
  else []

/-- What a gateway of `x` forwards in this step, once for each entry of the tunnel's table
that sends it to `y`. -/
def spoken (x y : ι) (r : Region ι) : RegionEvent ι → List ForwardCall
  | .step z (.lan i now lan steadyNow) =>
      if z = x then
        ((r.site x).gateways[i]?).elim [] fun g ↦
          ((emit (TunnelGateway.machine link) g (.lan now lan)).filterMap
            GatewayOutput.call?).flatMap
              (copies (r.site x).tunnel (hosts.address y) steadyNow)
      else []
  | _ => []

/-- Nobody but the sites sends from their addresses, no site has another peer than these,
and what a gateway reads leaves room for a header. -/
def Genuine : RegionEvent ι → Prop
  | .step _ (.tunnel (.receive _ sender _) _) => hosts.owner sender = none
  | .step _ (.tunnel (.addPeer endpoint) _) | .step _ (.tunnel (.acceptPeer endpoint) _) =>
      (hosts.owner endpoint).isSome = true
  | .step _ (.lan _ _ e _) =>
      ∀ datagram ∈ TunnelGateway.datagram? e,
        encapsulatedSize .unicast datagram.bytes.length ≤ kMaxMessageSize
  | _ => True

/-! ## A run of sites is a run of tunnels -/

omit [DecidableEq ι] in
theorem flights_append (x : ι) (xs ys : List TunnelOutput) :
    hosts.flights x (xs ++ ys) = hosts.flights x xs ++ hosts.flights x ys :=
  List.filterMap_append

omit [DecidableEq ι] in
/-- A call of `forward_locally` sends nothing. -/
theorem flights_filter (x : ι) (out : List TunnelOutput) :
    hosts.flights x (out.filter (fun o ↦ (Site.localMessage? o).isNone)) =
      hosts.flights x out := by
  induction out with
  | nil => rfl
  | cons o out ih =>
      cases o with
      | forwardLocally message => exact ih
      | send dest bytes | unknownPeer endpoint =>
          exact (flights_append hosts x [_] _).trans
            ((congrArg _ ih).trans (flights_append hosts x [_] out).symm)

omit [DecidableEq ι] in
theorem flights_emit (x : ι) (s : Site) (e : SiteEvent) :
    hosts.flights x (Site.tunnelOutputs (emit (Site.machine link) s e)) =
      hosts.flights x (outputs UdpTunnel.machine s.tunnel (s.tunnelEvents link e)) := by
  cases e with
  | tunnel e ios =>
      by_cases hexternal : Site.isExternal e = true
      · rw [emit, Site.machine_tunnel hexternal]
        simp only [Site.tunnelOutputs_deliver, flights_filter, Site.tunnelEvents, hexternal,
          if_true, outputs_cons, outputs_nil, List.append_nil]
      · simp [emit, Site.machine, Site.tunnelEvents, hexternal, Site.tunnelOutputs]
  | lan i now e steadyNow =>
      cases hg : s.gateways[i]? with
      | none => simp [emit, Site.machine, Site.tunnelEvents, hg, Site.tunnelOutputs]
      | some g =>
          rw [emit, Site.machine_lan hg, Site.forwardAll_eq]
          simp [Site.tunnelEvents, hg]

theorem run_act (n : Network ι) (x : ι) (es : List TunnelEvent) :
    run (Internet.machine hosts) n (es.map (.act x)) =
      { tunnel := Function.update n.tunnel x (run UdpTunnel.machine (n.tunnel x) es)
        inFlight := n.inFlight ++
          hosts.flights x (outputs UdpTunnel.machine (n.tunnel x) es) } := by
  induction es generalizing n with
  | nil => simp [Hosts.flights]
  | cons e es ih =>
      rw [List.map_cons, run_cons, ih]
      simp [next, Internet.machine, Hosts.act, flights_append]

theorem tunnels_act (r : Region ι) (x : ι) (e : SiteEvent) :
    (act hosts link r x e).1.tunnels =
      run (Internet.machine hosts) r.tunnels (((r.site x).tunnelEvents link e).map (.act x)) := by
  rw [run_act]
  have htunnel : (fun y ↦
      (Function.update r.site x (next (Site.machine link) (r.site x) e) y).tunnel) =
        Function.update (fun y ↦ (r.site y).tunnel) x
          (run UdpTunnel.machine (r.site x).tunnel ((r.site x).tunnelEvents link e)) := by
    funext y
    by_cases hy : y = x
    · subst hy
      simp [Site.tunnel_next]
    · simp [hy]
  simp only [tunnels, act, flights_emit, htunnel]

theorem tunnels_next (r : Region ι) (e : RegionEvent ι) :
    (next (machine hosts link) r e).tunnels =
      run (Internet.machine hosts) r.tunnels (r.tunnelEvents link e) := by
  cases e with
  | step x e => exact tunnels_act hosts link r x e
  | deliver now i ios =>
      cases hflight : r.inFlight[i]? with
      | none => simp [tunnelEvents, next, machine, Internet.machine, Hosts.machine, tunnels,
          hflight]
      | some f =>
          have hact := tunnels_act hosts link { r with inFlight := r.inFlight.eraseIdx i } f.dest
            (.tunnel (.receive now (hosts.address f.source) f.datagram) ios)
          simp only [next, machine, hflight]
          rw [hact]
          simp [tunnelEvents, Site.tunnelEvents, Site.isExternal, next, Internet.machine,
            Hosts.machine, tunnels, hflight]
  | lose i => rfl
  | repeated i => rfl

/-! ## What is handed to the gateways -/

omit [DecidableEq ι] in
theorem filterMap_localCall (x : ι) (out : List TunnelOutput) :
    (out.map (fun o ↦ (x, o))).filterMap (fun o ↦ Internet.localCall? o.2) =
      (Site.localCalls out).map LocalMessage.call := by
  rw [List.filterMap_map, Site.localCalls, List.map_filterMap]
  apply List.filterMap_congr
  intro o _
  cases o <;> rfl

theorem handed_act (x y z : ι) (n : Network ι) (now : TimePoint) (sender : UdpEndpoint)
    (datagram : Datagram) :
    Internet.handed hosts x y n (.act z (.receive now sender datagram)) =
      if z = y ∧ sender = hosts.address x then
        (Site.localCalls (emit UdpTunnel.machine (n.tunnel y)
          (.receive now sender datagram))).map LocalMessage.call
      else [] := by
  by_cases hends : z = y ∧ sender = hosts.address x
  · obtain ⟨rfl, rfl⟩ := hends
    simp only [Internet.handed, and_self, if_true]
    exact filterMap_localCall z _
  · simp only [Internet.handed, hends, if_false]

theorem gathered_handed (x y : ι) (r : Region ι) (e : RegionEvent ι) :
    gathered (Internet.machine hosts) (Internet.handed hosts x y) r.tunnels
      (r.tunnelEvents link e) = heard hosts x y r e := by
  cases e with
  | step z e =>
      cases e with
      | tunnel e ios =>
          cases e with
          | receive now sender datagram =>
              simp [tunnelEvents, Site.tunnelEvents, Site.isExternal, heard, incoming?,
                handed_act, tunnels]
          | _ => simp [tunnelEvents, Site.tunnelEvents, Site.isExternal, heard, incoming?,
                  Internet.handed]
      | lan i now e steadyNow =>
          apply gathered_eq_nil
          intro n e' he'
          obtain ⟨te, hte, rfl⟩ := List.mem_map.mp he'
          obtain ⟨_, _, -, -, rfl⟩ := Site.exists_call_of_mem_tunnelEvents hte
          rfl
  | deliver now i ios =>
      cases hflight : r.inFlight[i]? with
      | none => simp [tunnelEvents, heard, incoming?, Internet.handed, tunnels, hflight]
      | some f =>
          have hemit : emit (Internet.machine hosts) r.tunnels (.deliver now i) =
              (emit UdpTunnel.machine (r.site f.dest).tunnel
                (.receive now (hosts.address f.source) f.datagram)).map (fun o ↦ (f.dest, o)) := by
            simp [emit, Internet.machine, Hosts.machine, Hosts.act, tunnels, hflight]
          by_cases hends : f.source = x ∧ f.dest = y
          · obtain ⟨rfl, rfl⟩ := hends
            simp only [tunnelEvents, gathered_cons, gathered_nil, List.append_nil, Internet.handed,
              hemit, filterMap_localCall, heard, incoming?, hflight, Option.map_some]
            simp [tunnels, hflight]
          · have hnot : ¬ (f.dest = y ∧ hosts.address f.source = hosts.address x) := by
              rintro ⟨hdest, hsource⟩
              exact hends ⟨Hosts.address_injective hosts hsource, hdest⟩
            simp [tunnelEvents, Internet.handed, heard, incoming?, tunnels, hflight, hends, hnot]
  | lose i | repeated i => simp [tunnelEvents, heard, incoming?, Internet.handed]

/-! ## What the gateways forward -/

omit [DecidableEq ι] in
theorem mem_copies {t : UdpTunnel} {endpoint : UdpEndpoint} {steadyNow : TimePoint}
    {call c : ForwardCall} (h : c ∈ copies t endpoint steadyNow call) :
    endpoint ∈ t.recipients call.type call.toNode ∧ c = call.onWire := by
  unfold copies at h
  split at h
  · obtain ⟨hcount, rfl⟩ := List.mem_replicate.mp h
    exact ⟨List.count_pos_iff.mp (Nat.pos_of_ne_zero hcount), rfl⟩
  · cases h

theorem exists_call_of_mem_spoken {x y : ι} {r : Region ι} {e : RegionEvent ι} {c : ForwardCall}
    (h : c ∈ spoken hosts link x y r e) :
    ∃ i now lan steadyNow g call, e = .step x (.lan i now lan steadyNow) ∧
      (r.site x).gateways[i]? = some g ∧
      .forward call ∈ emit (TunnelGateway.machine link) g (.lan now lan) ∧
      hosts.address y ∈ (r.site x).tunnel.recipients call.type call.toNode ∧
      c = call.onWire := by
  cases e with
  | step z e =>
      cases e with
      | tunnel => cases h
      | lan i now lan steadyNow =>
          simp only [spoken] at h
          split at h
          · rename_i hz
            subst hz
            cases hg : (r.site z).gateways[i]? with
            | none => simp [hg] at h
            | some g =>
                rw [hg, Option.elim_some] at h
                obtain ⟨call, hcall, hc⟩ := List.mem_flatMap.mp h
                obtain ⟨o, ho, hforward⟩ := List.mem_filterMap.mp hcall
                cases o <;> cases hforward
                obtain ⟨hmem, rfl⟩ := mem_copies hc
                exact ⟨i, now, lan, steadyNow, g, call, rfl, hg, ho, hmem, rfl⟩
          · cases h
  | deliver | lose | repeated => cases h

theorem gathered_offered (x y : ι) (r : Region ι) (e : RegionEvent ι) :
    gathered (Internet.machine hosts) (Internet.offered hosts x y) r.tunnels
      (r.tunnelEvents link e) = spoken hosts link x y r e := by
  cases e with
  | step z e =>
      cases e with
      | tunnel e ios =>
          apply gathered_eq_nil
          intro n e' he'
          obtain ⟨te, hte, rfl⟩ := List.mem_map.mp he'
          obtain ⟨hexternal, rfl⟩ := Site.mem_tunnelEvents_tunnel.mp hte
          cases te with
          | forward => cases hexternal
          | _ => rfl
      | lan i now lan steadyNow =>
          cases hg : (r.site z).gateways[i]? with
          | none =>
              have hnone : z = x → (r.site x).gateways[i]? = none := fun hz ↦ hz ▸ hg
              simp only [tunnelEvents, Site.tunnelEvents, hg, Option.elim_none, List.map_nil,
                gathered_nil, spoken]
              split
              · rw [hnone ‹_›, Option.elim_none]
              · rfl
          | some g =>
              have hlength := (@TunnelGateway.length_calls_le link g now lan).trans
                (by split <;> omega : _ ≤ 1)
              simp only [tunnelEvents, Site.tunnelEvents, hg, Option.elim_some,
                Site.filterMap_forwardEvent?, spoken]
              generalize hcalls : (emit (TunnelGateway.machine link) g (.lan now lan)).filterMap
                GatewayOutput.call? = calls at hlength
              by_cases hz : z = x
              · subst hz
                simp only [hg, Option.elim_some, hcalls, if_true]
                cases calls with
                | nil => rfl
                | cons call rest =>
                    obtain rfl : rest = [] := by simpa using hlength
                    simp only [List.map_cons, List.map_nil, gathered_cons, gathered_nil,
                      List.append_nil, List.flatMap_cons, List.flatMap_nil, Internet.offered,
                      copies, true_and]
                    rfl
              · rw [if_neg hz]
                apply gathered_eq_nil
                intro n e' he'
                obtain ⟨te, hte, rfl⟩ := List.mem_map.mp he'
                obtain ⟨call, -, rfl⟩ := List.mem_map.mp hte
                simp [Internet.offered, hz]
  | deliver | lose | repeated => simp [tunnelEvents, spoken, Internet.offered]

/-! ## Runs -/

omit [DecidableEq ι] in
theorem genuine_tunnelEvents {r : Region ι} {e : RegionEvent ι} (he : Genuine hosts e) :
    ∀ e' ∈ r.tunnelEvents link e, Internet.Genuine hosts e' := by
  intro e' he'
  cases e with
  | step x e =>
      obtain ⟨te, hte, rfl⟩ := List.mem_map.mp he'
      cases e with
      | tunnel e ios =>
          obtain ⟨hexternal, rfl⟩ := Site.mem_tunnelEvents_tunnel.mp hte
          cases te with
          | receive => exact he
          | forward => cases hexternal
          | _ => trivial
      | lan i now e steadyNow =>
          obtain ⟨g, call, -, hcall, rfl⟩ := Site.exists_call_of_mem_tunnelEvents hte
          obtain ⟨-, datagram, hdatagram, hlen⟩ :=
            TunnelGateway.call?_spec (TunnelGateway.forward_mem_emit_lan.mp hcall)
          have hroom := he datagram hdatagram
          have hheader := tunnelHeaderSize_le call.type
          have hunicast : tunnelHeaderSize .unicast = 19 := rfl
          simp only [Internet.Genuine, encapsulatedSize] at hroom ⊢
          omega
  | deliver | lose | repeated =>
      obtain rfl := List.mem_singleton.mp he'
      trivial

/-- The events of a run, as the tunnels see them. -/
def travels (r : Region ι) (es : List (RegionEvent ι)) : List (InternetEvent ι) :=
  gathered (machine hosts link) (tunnelEvents link) r es

theorem genuine_travels {r : Region ι} {es : List (RegionEvent ι)}
    (hgenuine : ∀ e ∈ es, Genuine hosts e) :
    ∀ e ∈ travels hosts link r es, Internet.Genuine hosts e := by
  intro e' he'
  obtain ⟨before, e, after, rfl, hmem⟩ := mem_gathered.mp he'
  exact genuine_tunnelEvents hosts link (hgenuine e (by simp)) e' hmem

theorem gathered_heard (x y : ι) (r : Region ι) (es : List (RegionEvent ι)) :
    gathered (machine hosts link) (heard hosts x y) r es =
      gathered (Internet.machine hosts) (Internet.handed hosts x y) r.tunnels
        (travels hosts link r es) :=
  gathered_translation (tunnels_next hosts link)
    (fun r e ↦ (gathered_handed hosts link x y r e).symm) r es

theorem gathered_spoken (x y : ι) (r : Region ι) (es : List (RegionEvent ι)) :
    gathered (machine hosts link) (spoken hosts link x y) r es =
      gathered (Internet.machine hosts) (Internet.offered hosts x y) r.tunnels
        (travels hosts link r es) :=
  gathered_translation (tunnels_next hosts link)
    (fun r e ↦ (gathered_offered hosts link x y r e).symm) r es

end Region

end LinkExtender
