import LinkExtender.Handshake.Link
import LinkExtender.Library.Trace
import LinkExtender.Site.Relay
import LinkExtender.TunnelGateway.Provenance
import LinkExtender.UdpTunnel.Session

/-!
# Two joined sites

Two sites that take their steps in any order.  The trace of a run keeps the site
before each step, so that what the gateways record, open and pass on in a step can be
read off it.
-/

namespace LinkExtender

open EventMachine
open Handshake (Side)

abbrev Sites := Side → Site

/-- A step of one of the sites, with the state of both before it. -/
abbrev SiteStep := Sites × (Side × SiteEvent)

/-- A measurement message that a gateway hands to the local network. -/
structure Handover where
  gateway : ℕ
  message : LocalMessage
  source : UdpEndpoint
  dest : UdpEndpoint
deriving DecidableEq

namespace Sites

def create (initialPeers : Side → List UdpEndpoint) (interfaces : Side → List IpAddress) :
    Sites :=
  fun x ↦ Site.create (initialPeers x) (interfaces x)

def machine (link : LinkLibrary) : Machine Sites (Side × SiteEvent) (Side × SiteOutput)
  | s, (x, e) =>
      (Function.update s x (next (Site.machine link) (s x) e),
        (emit (Site.machine link) (s x) e).map (Prod.mk x))

end Sites

namespace SiteStep

open TunnelGateway (isMeasurement)

variable {link : LinkLibrary}

def side (u : SiteStep) : Side := u.2.1

def site (u : SiteStep) : Site := u.1 u.2.1

def event (u : SiteStep) : SiteEvent := u.2.2

/-! ## What a step shows -/

/-- What `f` reads off the gateways that see the event, with their positions. -/
def readings {α : Type*} (f : TunnelGateway → GatewayEvent → Option α) (u : SiteStep) :
    List (ℕ × α) :=
  u.site.gateways.zipIdx.filterMap fun r ↦
    ((u.site.eventAt r.2 u.event).bind (f r.1)).map (Prod.mk r.2)

def announcements (link : LinkLibrary) : SiteStep → List (ℕ × Binding) :=
  readings (TunnelGateway.announcement? link)

def mints (link : LinkLibrary) : SiteStep → List (ℕ × Binding) :=
  readings (TunnelGateway.mint? link)

def openings (link : LinkLibrary) : SiteStep → List (ℕ × Port) :=
  readings (TunnelGateway.opening? link)

def transfers (link : LinkLibrary) : SiteStep → List (ℕ × Transfer) :=
  readings (TunnelGateway.transfer? link)

/-- The measurement messages that go out on the local network. -/
def handovers (link : LinkLibrary) (u : SiteStep) : List Handover :=
  match u.event with
  | .tunnel e _ =>
      ((Site.localCalls (emit UdpTunnel.machine u.site.tunnel e)).filter
        (fun message ↦ isMeasurement message.type)).flatMap fun message ↦
          (emit (Site.machine link) u.site u.event).filterMap fun
            | .gateway i (.send source _ dest) => some ⟨i, message, source, dest⟩
            | _ => none
  | .lan .. => []

/-- The datagrams that go into the tunnel. -/
def tunnelled (link : LinkLibrary) (u : SiteStep) : List (List UInt8) :=
  (emit (Site.machine link) u.site u.event).filterMap fun
    | .tunnel (.send _ bytes) => some bytes
    | _ => none

/-- The datagram that comes out of the tunnel. -/
def received? (u : SiteStep) : Option Datagram :=
  match u.event with
  | .tunnel (.receive _ _ datagram) _ => some datagram
  | _ => none

/-! ## Readings of the gateways -/

theorem mem_readings {α : Type*} {f : TunnelGateway → GatewayEvent → Option α} {u : SiteStep}
    {i : ℕ} {a : α} :
    (i, a) ∈ readings f u ↔ ∃ g ge, u.site.gateways[i]? = some g ∧
      u.site.eventAt i u.event = some ge ∧ f g ge = some a := by
  unfold readings
  rw [List.mem_filterMap]
  constructor
  · rintro ⟨⟨g, j⟩, hg, hmap⟩
    obtain ⟨b, hbind, heq⟩ := Option.map_eq_some_iff.mp hmap
    obtain ⟨rfl, rfl⟩ := Prod.mk.inj heq
    obtain ⟨ge, hevent, hread⟩ := Option.bind_eq_some_iff.mp hbind
    exact ⟨g, ge, List.mem_zipIdx_iff_getElem?.mp hg, hevent, hread⟩
  · rintro ⟨g, ge, hg, hevent, hread⟩
    refine ⟨(g, i), List.mem_zipIdx_iff_getElem?.mpr hg, ?_⟩
    simp only [hevent, Option.bind_some, hread, Option.map_some]

theorem mem_readings_lan {α : Type*} {f : TunnelGateway → GatewayEvent → Option α}
    (hf : ∀ g io message, f g (.tunnel io message) = none) {u : SiteStep} {i : ℕ} {a : α}
    (h : (i, a) ∈ readings f u) :
    ∃ g now e steadyNow, u.event = .lan i now e steadyNow ∧ u.site.gateways[i]? = some g ∧
      f g (.lan now e) = some a := by
  obtain ⟨g, ge, hg, hevent, hread⟩ := mem_readings.mp h
  cases ge with
  | tunnel io message =>
      rw [hf] at hread
      cases hread
  | lan now e =>
      obtain ⟨steadyNow, hsite⟩ := Site.event_of_eventAt_lan hevent
      exact ⟨g, now, e, steadyNow, hsite, hg, hread⟩

/-- One gateway at most meets an event of a local network. -/
theorem same_of_readings_lan {α β : Type*} {f : TunnelGateway → GatewayEvent → Option α}
    {f' : TunnelGateway → GatewayEvent → Option β}
    (hf : ∀ g io message, f g (.tunnel io message) = none)
    (hf' : ∀ g io message, f' g (.tunnel io message) = none) {u : SiteStep} {i j : ℕ} {a : α}
    {b : β} (ha : (i, a) ∈ readings f u) (hb : (j, b) ∈ readings f' u) :
    i = j ∧ ∃ g ge, f g ge = some a ∧ f' g ge = some b := by
  obtain ⟨g, now, e, steadyNow, hevent, hg, hread⟩ := mem_readings_lan hf ha
  obtain ⟨g', now', e', steadyNow', hevent', hg', hread'⟩ := mem_readings_lan hf' hb
  rw [hevent] at hevent'
  obtain ⟨rfl, rfl, rfl, -⟩ := SiteEvent.lan.inj hevent'
  rw [hg] at hg'
  obtain rfl := Option.some.inj hg'
  exact ⟨rfl, g, .lan now e, hread, hread'⟩

theorem mints_subsingleton {u : SiteStep} {i j : ℕ} {b c : Binding}
    (hb : (i, b) ∈ mints link u) (hc : (j, c) ∈ mints link u) : i = j ∧ b = c := by
  obtain ⟨hi, g, ge, hread, hread'⟩ :=
    same_of_readings_lan (fun _ _ _ ↦ rfl) (fun _ _ _ ↦ rfl) hb hc
  rw [hread] at hread'
  exact ⟨hi, Option.some.inj hread'⟩

theorem announcements_subsingleton {u : SiteStep} {i j : ℕ} {b c : Binding}
    (hb : (i, b) ∈ announcements link u) (hc : (j, c) ∈ announcements link u) : b = c := by
  obtain ⟨-, g, ge, hread, hread'⟩ :=
    same_of_readings_lan (fun _ _ _ ↦ rfl) (fun _ _ _ ↦ rfl) hb hc
  rw [hread] at hread'
  exact Option.some.inj hread'

theorem notMem_mints_of_announcements {u : SiteStep} {i j : ℕ} {b c : Binding}
    (hb : (i, b) ∈ announcements link u) : (j, c) ∉ mints link u := by
  intro hc
  obtain ⟨-, g, ge, hread, hread'⟩ :=
    same_of_readings_lan (fun _ _ _ ↦ rfl) (fun _ _ _ ↦ rfl) hb hc
  rw [TunnelGateway.mint?_of_announcement? hread] at hread'
  cases hread'

theorem toNode_of_mem_transfers {u : SiteStep} {r : ℕ × Transfer}
    (h : r ∈ transfers link u) : r.2.call.toNode = some r.2.port.node := by
  obtain ⟨g, ge, -, -, hread⟩ := mem_readings.mp h
  exact (TunnelGateway.transfer?_spec hread).2.1

/-! ## What crosses the tunnel -/

theorem exists_received_of_eventAt {u : SiteStep} {i : ℕ} {io : LocalIo} {message : LocalMessage}
    (h : u.site.eventAt i u.event = some (.tunnel io message)) :
    ∃ datagram ∈ u.received?, UdpTunnel.messageOf datagram = some message := by
  obtain ⟨e, ios, hsite, -, hcall⟩ := Site.event_of_eventAt_tunnel h
  obtain ⟨now, sender, datagram, rfl, hmessageOf⟩ := Site.exists_receive_of_mem_localCalls hcall
  refine ⟨datagram, ?_, hmessageOf⟩
  simp only [received?, hsite, Option.mem_some_iff]

theorem mem_handovers {u : SiteStep} {h : Handover} (hmem : h ∈ handovers link u) :
    isMeasurement h.message.type = true ∧ ∃ io g bytes,
      u.site.gateways[h.gateway]? = some g ∧
      u.site.eventAt h.gateway u.event = some (.tunnel io h.message) ∧
      .send h.source bytes h.dest ∈
        emit (TunnelGateway.machine link) g (.tunnel io h.message) := by
  unfold handovers at hmem
  cases hevent : u.event with
  | lan =>
      rw [hevent] at hmem
      cases hmem
  | tunnel e ios =>
      rw [hevent] at hmem
      obtain ⟨message, hcall, hout⟩ := List.mem_flatMap.mp hmem
      obtain ⟨hcall, htype⟩ := List.mem_filter.mp hcall
      obtain ⟨out, hemit, hsend⟩ := List.mem_filterMap.mp hout
      split at hsend <;> cases hsend
      rename_i i source bytes dest
      have hat := Site.eventAt_of_mem_localCalls hcall ios i
      have hmine := Site.mem_outputsAt hemit
      rw [Site.outputsAt_emit, hat] at hmine
      obtain ⟨g, hg⟩ : ∃ g, u.site.gateways[i]? = some g := by
        apply Option.ne_none_iff_exists'.mp
        intro hnone
        rw [hnone] at hmine
        cases hmine
      rw [hg] at hmine
      exact ⟨htype, ios i, g, bytes, hg, hat, hmine⟩

theorem tunnel_notMem_forwardLocally {ios : ℕ → LocalIo} {i : ℕ} {gs : List TunnelGateway}
    {message : LocalMessage} {out : TunnelOutput} :
    .tunnel out ∉ (Site.forwardLocally link ios i gs message).2 := by
  induction gs generalizing i message with
  | nil => exact List.not_mem_nil
  | cons g gs ih =>
      intro h
      rcases List.mem_append.mp h with hhead | htail
      · simp at hhead
      · exact ih htail

/-- Of what a tunnel event brings about, the tunnel sends what it sends by itself. -/
theorem tunnel_mem_deliver {ios : ℕ → LocalIo} {gs : List TunnelGateway}
    {outs : List TunnelOutput} {out : TunnelOutput}
    (h : .tunnel out ∈ (Site.deliver link ios gs outs).2) : out ∈ outs := by
  induction outs generalizing gs with
  | nil => cases h
  | cons o outs ih =>
      cases o with
      | forwardLocally message =>
          rcases List.mem_append.mp h with hhead | htail
          · exact absurd hhead tunnel_notMem_forwardLocally
          · exact List.mem_cons_of_mem _ (ih htail)
      | send | unknownPeer =>
          rcases List.mem_cons.mp h with hhead | htail
          · rw [SiteOutput.tunnel.inj hhead]
            exact List.mem_cons_self
          · exact List.mem_cons_of_mem _ (ih htail)

theorem mem_forwardAll {t : UdpTunnel} {steadyNow : TimePoint} {outs : List GatewayOutput}
    {out : TunnelOutput} (h : out ∈ (Site.forwardAll t steadyNow outs).2) :
    ∃ t' call, .forward call ∈ outs ∧
      out ∈ (UdpTunnel.forward t' steadyNow call.type call.fromNode call.message
        call.toNode).2 := by
  induction outs generalizing t with
  | nil => cases h
  | cons o outs ih =>
      have hrest (t : UdpTunnel) (h : out ∈ (Site.forwardAll t steadyNow outs).2) :
          ∃ t' call, .forward call ∈ o :: outs ∧ out ∈ (UdpTunnel.forward t' steadyNow
            call.type call.fromNode call.message call.toNode).2 := by
        obtain ⟨t', call, hcall, hout⟩ := ih h
        exact ⟨t', call, List.mem_cons_of_mem _ hcall, hout⟩
      cases o with
      | forward call =>
          rcases List.mem_append.mp h with hhead | htail
          · exact ⟨t, call, List.mem_cons_self, hhead⟩
          · exact hrest _ htail
      | _ => exact hrest t h

theorem type_of_head {datagram : Datagram} {message : LocalMessage}
    (hmessage : UdpTunnel.messageOf datagram = some message) {type : TunnelMessageType}
    {rest : List UInt8} (hbytes : datagram.bytes = type.toUInt8 :: rest) :
    message.type = type := by
  rw [UdpTunnel.type_of_messageOf hmessage hbytes, TunnelMessageType.ofUInt8_toUInt8]

/-- A measurement that is read from what a site has sent was passed on by one of its
gateways. -/
theorem exists_transfer_of_tunnelled {u : SiteStep} {datagram : Datagram}
    {message : LocalMessage} (hsent : datagram.bytes ∈ tunnelled link u)
    (hmessage : UdpTunnel.messageOf datagram = some message)
    (htype : isMeasurement message.type = true) :
    ∃ i t, (i, t) ∈ transfers link u ∧ t.call.type = message.type ∧
      t.call.fromNode = message.fromNode ∧ t.call.toNode = message.toNode := by
  obtain ⟨out, hemit, hsend⟩ := List.mem_filterMap.mp hsent
  split at hsend <;> cases hsend
  rename_i dest
  cases hevent : u.event with
  | tunnel e ios =>
      rw [hevent] at hemit
      cases hexternal : Site.isExternal e with
      | false =>
          simp only [emit, Site.machine, hexternal] at hemit
          cases hemit
      | true =>
          rw [emit, Site.machine_tunnel hexternal] at hemit
          obtain ⟨type, rest, hbytes, horigin⟩ :=
            UdpTunnel.head_of_send_mem_emit (tunnel_mem_deliver hemit)
          rw [type_of_head hmessage hbytes] at htype
          rcases horigin with rfl | rfl | ⟨rfl, -⟩ | ⟨now, fromNode, payload, toNode, rfl⟩
          · cases htype
          · cases htype
          · cases htype
          · cases hexternal
  | lan i now e steadyNow =>
      rw [hevent] at hemit
      cases hg : u.site.gateways[i]? with
      | none =>
          simp only [emit, Site.machine, hg] at hemit
          cases hemit
      | some g =>
          rw [emit, Site.machine_lan hg] at hemit
          rcases List.mem_append.mp hemit with hgateway | htunnel
          · simp at hgateway
          · obtain ⟨out, hout, heq⟩ := List.mem_map.mp htunnel
            obtain rfl := SiteOutput.tunnel.inj heq
            obtain ⟨t', call, hcall, hforward⟩ := mem_forwardAll hout
            obtain ⟨hsame, hfrom, hto⟩ := UdpTunnel.messageOf_of_forward hforward hmessage
            rw [hsame] at htype
            obtain ⟨t, htransfer, rfl⟩ := TunnelGateway.transfer?_of_forward hcall htype
            refine ⟨i, t, mem_readings.mpr ⟨g, _, hg, ?_, htransfer⟩, hsame.symm, hfrom.symm, ?_⟩
            · rw [hevent]
              simp only [Site.eventAt, if_true]
            · rw [hto]
              cases hkind : t.call.type <;> simp [hkind, isMeasurement] at htype ⊢ <;> rfl

end SiteStep

end LinkExtender
