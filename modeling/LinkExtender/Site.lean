import LinkExtender.TunnelGateway.Steps
import LinkExtender.UdpTunnel.PeerTable

/-!
# A site

The gateways of one host and the `UdpTunnel` that they are registered with.  A
message that arrives through the tunnel is handed to all gateways, one after the
other and in one buffer; a gateway's calls of `forward` run on the tunnel at once.
-/

namespace LinkExtender

open EventMachine

structure Site where
  tunnel : UdpTunnel
  gateways : List TunnelGateway

inductive SiteOutput where
  | tunnel (out : TunnelOutput)
  | gateway (i : ℕ) (out : GatewayOutput)
deriving DecidableEq

/-- What happens to a site: an event of its tunnel, with what gateway `i` meets in
`ios i` while it handles the message, or an event on the side of gateway `i`, with
the reading of the tunnel's clock. -/
inductive SiteEvent where
  | tunnel (e : TunnelEvent) (ios : ℕ → LocalIo)
  | lan (i : ℕ) (now : TimePoint) (e : LanEvent) (steadyNow : TimePoint)

namespace Site

variable {link : LinkLibrary}

def create (initialPeers : List UdpEndpoint) (interfaces : List IpAddress) : Site where
  tunnel := UdpTunnel.create initialPeers
  gateways := interfaces.map TunnelGateway.create

/-- The loop of `Tunnel::forward_locally` from gateway `i` on. -/
def forwardLocally (link : LinkLibrary) (ios : ℕ → LocalIo) :
    ℕ → List TunnelGateway → LocalMessage → List TunnelGateway × List SiteOutput
  | _, [], _ => ([], [])
  | i, g :: gs, message =>
      let (g, buffer, out) := g.forwardMessageLocally link (ios i) message
      let (gs, rest) := forwardLocally link ios (i + 1) gs { message with buffer := buffer }
      (g :: gs, out.map (.gateway i) ++ rest)

/-- The outputs of the tunnel in order, its calls of `forward_locally` carried out. -/
def deliver (link : LinkLibrary) (ios : ℕ → LocalIo) :
    List TunnelGateway → List TunnelOutput → List TunnelGateway × List SiteOutput
  | gs, [] => (gs, [])
  | gs, .forwardLocally message :: outs =>
      let (gs, delivered) := forwardLocally link ios 0 gs message
      let (gs, rest) := deliver link ios gs outs
      (gs, delivered ++ rest)
  | gs, out :: outs =>
      let (gs, rest) := deliver link ios gs outs
      (gs, .tunnel out :: rest)

/-- The calls of `forward` among the outputs of a gateway, carried out. -/
def forwardAll (t : UdpTunnel) (steadyNow : TimePoint) :
    List GatewayOutput → UdpTunnel × List TunnelOutput
  | [] => (t, [])
  | .forward call :: outs =>
      let (t, sent) := t.forward steadyNow call.type call.fromNode call.message call.toNode
      let (t, rest) := forwardAll t steadyNow outs
      (t, sent ++ rest)
  | _ :: outs => forwardAll t steadyNow outs

/-- `forward` is called by gateways only, so it is no event of its own here. -/
def isExternal : TunnelEvent → Bool
  | .forward .. => false
  | _ => true

def machine (link : LinkLibrary) : Machine Site SiteEvent SiteOutput
  | s, .tunnel e ios =>
      if isExternal e then
        let (tunnel, out) := UdpTunnel.machine s.tunnel e
        let (gateways, out) := deliver link ios s.gateways out
        (⟨tunnel, gateways⟩, out)
      else (s, [])
  | s, .lan i now e steadyNow =>
      match s.gateways[i]? with
      | none => (s, [])
      | some g =>
          let (g, out) := g.lanStep link now e
          let (tunnel, sent) := forwardAll s.tunnel steadyNow out
          (⟨tunnel, s.gateways.set i g⟩, out.map (.gateway i) ++ sent.map .tunnel)

/-! ## Calls of `forward_locally` -/

def localMessage? : TunnelOutput → Option LocalMessage
  | .forwardLocally message => some message
  | _ => none

def localCalls (out : List TunnelOutput) : List LocalMessage := out.filterMap localMessage?

theorem localCalls_eq_nil {out : List TunnelOutput}
    (h : ∀ message, .forwardLocally message ∉ out) : localCalls out = [] := by
  apply List.filterMap_eq_nil_iff.mpr
  intro o ho
  cases o with
  | forwardLocally message => exact absurd ho (h message)
  | _ => rfl

theorem exists_receive_of_mem_localCalls {t : UdpTunnel} {e : TunnelEvent}
    {message : LocalMessage} (h : message ∈ localCalls (emit UdpTunnel.machine t e)) :
    ∃ now sender datagram, e = .receive now sender datagram ∧
      UdpTunnel.messageOf datagram = some message := by
  obtain ⟨out, hout, hmessage⟩ := List.mem_filterMap.mp h
  cases out <;> cases hmessage
  obtain ⟨now, sender, datagram, -, -, rfl, hmessageOf, -⟩ :=
    UdpTunnel.forwardLocally_mem_emit hout
  exact ⟨now, sender, datagram, rfl, hmessageOf⟩

/-- A step of the tunnel calls `forward_locally` at most once. -/
theorem length_localCalls_emit_le (t : UdpTunnel) (e : TunnelEvent) :
    (localCalls (emit UdpTunnel.machine t e)).length ≤ 1 := by
  by_cases hnone : ∀ message, .forwardLocally message ∉ emit UdpTunnel.machine t e
  · simp [localCalls_eq_nil hnone]
  · obtain ⟨message, hmem⟩ := not_forall_not.mp hnone
    have heffect := UdpTunnel.effect t e
    obtain ⟨now, sender, datagram, -, -, rfl, -, -, -, -⟩ :=
      UdpTunnel.forwardLocally_mem_emit hmem
    generalize next UdpTunnel.machine t (.receive now sender datagram) = t',
      emit UdpTunnel.machine t (.receive now sender datagram) = out at heffect hmem ⊢
    cases heffect with
    | hello hmessage htype hpeer => split at hmem <;> simp at hmem
    | unknown => simp at hmem
    | _ => simp [localCalls, localMessage?]

/-! ## What one gateway sees of a step -/

/-- What a step of the site is for gateway `i`. -/
def eventAt (s : Site) (i : ℕ) : SiteEvent → Option GatewayEvent
  | .tunnel e ios =>
      if isExternal e then
        ((localCalls (emit UdpTunnel.machine s.tunnel e)).head?).map (.tunnel (ios i))
      else none
  | .lan j now e _ => if j = i then some (.lan now e) else none

theorem event_of_eventAt_lan {s : Site} {i : ℕ} {e : SiteEvent} {now : TimePoint}
    {e' : LanEvent} (h : s.eventAt i e = some (.lan now e')) :
    ∃ steadyNow, e = .lan i now e' steadyNow := by
  cases e with
  | tunnel e ios =>
      simp only [eventAt] at h
      split at h
      · obtain ⟨message, -, heq⟩ := Option.map_eq_some_iff.mp h
        cases heq
      · cases h
  | lan j now' e steadyNow =>
      obtain ⟨rfl, heq⟩ := Option.ite_none_right_eq_some.mp h
      cases heq
      exact ⟨steadyNow, rfl⟩

theorem event_of_eventAt_tunnel {s : Site} {i : ℕ} {e : SiteEvent} {io : LocalIo}
    {message : LocalMessage} (h : s.eventAt i e = some (.tunnel io message)) :
    ∃ e' ios, e = .tunnel e' ios ∧ io = ios i ∧
      message ∈ localCalls (emit UdpTunnel.machine s.tunnel e') := by
  cases e with
  | tunnel e ios =>
      simp only [eventAt] at h
      split at h
      · obtain ⟨message', hhead, heq⟩ := Option.map_eq_some_iff.mp h
        cases heq
        exact ⟨e, ios, rfl, rfl, List.mem_of_head? hhead⟩
      · cases h
  | lan j now e steadyNow =>
      obtain ⟨-, heq⟩ := Option.ite_none_right_eq_some.mp h
      cases heq

def outputsAt (i : ℕ) (out : List SiteOutput) : List GatewayOutput :=
  out.filterMap fun
    | .gateway j o => if j = i then some o else none
    | .tunnel _ => none

@[simp] theorem outputsAt_append (i : ℕ) (xs ys : List SiteOutput) :
    outputsAt i (xs ++ ys) = outputsAt i xs ++ outputsAt i ys :=
  List.filterMap_append ..

@[simp] theorem outputsAt_map_gateway (i j : ℕ) (out : List GatewayOutput) :
    outputsAt i (out.map (.gateway j)) = if j = i then out else [] := by
  by_cases h : j = i <;> simp [outputsAt, List.filterMap_map, h]

@[simp] theorem outputsAt_map_tunnel (i : ℕ) (out : List TunnelOutput) :
    outputsAt i (out.map .tunnel) = [] := by
  simp [outputsAt]

/-- Sharing the buffer is harmless: every gateway ends as if it had been given the
message as it arrived. -/
theorem getElem?_forwardLocally (ios : ℕ → LocalIo) (i : ℕ) (gs : List TunnelGateway)
    (message : LocalMessage) (j : ℕ) :
    (forwardLocally link ios i gs message).1[j]? =
      (gs[j]?).map (fun g ↦ (g.forwardMessageLocally link (ios (i + j)) message).1) := by
  induction gs generalizing i j message with
  | nil => simp [forwardLocally]
  | cons g gs ih =>
      cases j with
      | zero => simp [forwardLocally]
      | succ j =>
          simp only [forwardLocally, List.getElem?_cons_succ]
          rw [ih (i + 1)]
          cases gs[j]? with
          | none => rfl
          | some g' =>
              have hsame := TunnelGateway.take_buffer_forwardMessageLocally link g (ios i) message
              have hcongr := (@TunnelGateway.forwardMessageLocally_congr link g'
                (ios (i + 1 + j)) message _ hsame).1
              rw [show i + (j + 1) = i + 1 + j by omega]
              exact congrArg some hcongr

theorem outputsAt_forwardLocally_of_lt (ios : ℕ → LocalIo) {i k : ℕ}
    (gs : List TunnelGateway) (message : LocalMessage) (hlt : k < i) :
    outputsAt k (forwardLocally link ios i gs message).2 = [] := by
  induction gs generalizing i message with
  | nil => rfl
  | cons g gs ih =>
      simp only [forwardLocally, outputsAt_append, outputsAt_map_gateway, hlt.ne', if_false,
        List.nil_append]
      apply ih _
      omega

theorem outputsAt_forwardLocally (ios : ℕ → LocalIo) (i : ℕ) (gs : List TunnelGateway)
    (message : LocalMessage) (j : ℕ) :
    outputsAt (i + j) (forwardLocally link ios i gs message).2 =
      (gs[j]?).elim []
        (fun g ↦ (g.forwardMessageLocally link (ios (i + j)) message).2.2) := by
  induction gs generalizing i j message with
  | nil => rfl
  | cons g gs ih =>
      cases j with
      | zero =>
          have hrest := @outputsAt_forwardLocally_of_lt link ios i.succ i gs
            { message with buffer := (g.forwardMessageLocally link (ios i) message).2.1 }
            (Nat.lt_succ_self i)
          simp [forwardLocally, hrest]
      | succ j =>
          have hne : i ≠ i + (j + 1) := by omega
          simp only [forwardLocally, outputsAt_append, outputsAt_map_gateway, hne, if_false,
            List.nil_append, List.getElem?_cons_succ]
          rw [show i + (j + 1) = i + 1 + j by omega, ih (i + 1)]
          cases gs[j]? with
          | none => rfl
          | some g' =>
              have hsame := TunnelGateway.take_buffer_forwardMessageLocally link g (ios i) message
              exact (@TunnelGateway.forwardMessageLocally_congr link g'
                (ios (i + 1 + j)) message _ hsame).2

theorem deliver_eq (ios : ℕ → LocalIo) (gs : List TunnelGateway) {out : List TunnelOutput}
    (hlen : (localCalls out).length ≤ 1) (j : ℕ) :
    (deliver link ios gs out).1[j]? = (gs[j]?).map (fun g ↦
        ((localCalls out).head?).elim g
          (fun message ↦ (g.forwardMessageLocally link (ios j) message).1)) ∧
      outputsAt j (deliver link ios gs out).2 = (gs[j]?).elim [] (fun g ↦
        ((localCalls out).head?).elim []
          (fun message ↦ (g.forwardMessageLocally link (ios j) message).2.2)) := by
  induction out generalizing gs with
  | nil => cases hg : gs[j]? <;> simp [deliver, localCalls, outputsAt, hg]
  | cons o out ih =>
      cases o with
      | forwardLocally message =>
          have hrest : localCalls out = [] := by
            simpa [localCalls, localMessage?] using hlen
          obtain ⟨ihgs, ihout⟩ := ih (forwardLocally link ios 0 gs message).1 (by simp [hrest])
          have hgs := @getElem?_forwardLocally link ios 0 gs message j
          have hout := @outputsAt_forwardLocally link ios 0 gs message j
          rw [Nat.zero_add] at hgs hout
          simp only [hrest, List.head?_nil, Option.elim_none] at ihgs ihout
          simp only [deliver, outputsAt_append, ihgs, ihout, hgs, hout]
          cases gs[j]? <;> simp [localCalls, localMessage?]
      | send dest bytes => exact ih gs hlen
      | unknownPeer endpoint => exact ih gs hlen

theorem machine_tunnel {s : Site} {e : TunnelEvent} (h : isExternal e = true)
    (ios : ℕ → LocalIo) :
    machine link s (.tunnel e ios) =
      (⟨next UdpTunnel.machine s.tunnel e,
          (deliver link ios s.gateways (emit UdpTunnel.machine s.tunnel e)).1⟩,
        (deliver link ios s.gateways (emit UdpTunnel.machine s.tunnel e)).2) := by
  simp only [machine, h, if_true]
  rfl

theorem machine_lan {s : Site} {i : ℕ} {g : TunnelGateway} (hg : s.gateways[i]? = some g)
    (now : TimePoint) (e : LanEvent) (steadyNow : TimePoint) :
    machine link s (.lan i now e steadyNow) =
      (⟨(forwardAll s.tunnel steadyNow
            (emit (TunnelGateway.machine link) g (.lan now e))).1,
          s.gateways.set i (next (TunnelGateway.machine link) g (.lan now e))⟩,
        (emit (TunnelGateway.machine link) g (.lan now e)).map (.gateway i) ++
          (forwardAll s.tunnel steadyNow
            (emit (TunnelGateway.machine link) g (.lan now e))).2.map .tunnel) := by
  simp only [machine, hg]
  rfl

/-- Gateway `i` takes a step of its own machine exactly where it sees an event. -/
theorem getElem?_gateways_next (s : Site) (e : SiteEvent) (i : ℕ) :
    (next (machine link) s e).gateways[i]? = (s.gateways[i]?).map (fun g ↦
      (s.eventAt i e).elim g (next (TunnelGateway.machine link) g)) := by
  cases e with
  | tunnel e ios =>
      by_cases hexternal : isExternal e = true
      · have hdeliver := (@deliver_eq link ios s.gateways _
          (length_localCalls_emit_le s.tunnel e) i).1
        rw [next, machine_tunnel hexternal]
        apply hdeliver.trans
        simp only [eventAt, hexternal, if_true]
        cases (localCalls (emit UdpTunnel.machine s.tunnel e)).head? <;> rfl
      · simp [next, machine, hexternal, eventAt]
  | lan j now e steadyNow =>
      cases hg : s.gateways[j]? with
      | none =>
          by_cases hj : j = i
          · subst hj
            simp [next, machine, hg]
          · simp [next, machine, hg, eventAt, hj]
      | some g =>
          rw [next, machine_lan hg]
          by_cases hj : j = i
          · subst hj
            obtain ⟨hlt, -⟩ := List.getElem?_eq_some_iff.mp hg
            simp only [eventAt, if_true, hg, Option.map_some, Option.elim_some,
              List.getElem?_set_self hlt]
          · simp [eventAt, hj]

/-- And its outputs are those of its own machine. -/
theorem outputsAt_emit (s : Site) (e : SiteEvent) (i : ℕ) :
    outputsAt i (emit (machine link) s e) = (s.gateways[i]?).elim [] (fun g ↦
      (s.eventAt i e).elim [] (emit (TunnelGateway.machine link) g)) := by
  cases e with
  | tunnel e ios =>
      by_cases hexternal : isExternal e = true
      · have hdeliver := (@deliver_eq link ios s.gateways _
          (length_localCalls_emit_le s.tunnel e) i).2
        rw [emit, machine_tunnel hexternal]
        apply hdeliver.trans
        simp only [eventAt, hexternal, if_true]
        cases (localCalls (emit UdpTunnel.machine s.tunnel e)).head? <;> rfl
      · cases hg : s.gateways[i]? <;>
          simp [emit, machine, hexternal, eventAt, outputsAt]
  | lan j now e steadyNow =>
      cases hg : s.gateways[j]? with
      | none =>
          by_cases hj : j = i
          · subst hj
            simp [emit, machine, hg, outputsAt]
          · cases s.gateways[i]? <;> simp [emit, machine, hg, eventAt, hj, outputsAt]
      | some g =>
          rw [emit, machine_lan hg]
          simp only [outputsAt_append, outputsAt_map_gateway, outputsAt_map_tunnel,
            List.append_nil, eventAt]
          by_cases hj : j = i
          · subst hj
            simp only [if_true, hg, Option.elim_some]
          · cases s.gateways[i]? <;> simp [hj]

end Site

end LinkExtender
