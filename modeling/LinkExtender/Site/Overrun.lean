import LinkExtender.Site.Measurements

/-!
# The buffer that `forward` fills

The sockets on the local network hand out up to `kMaxMessageSize` bytes.
`encapsulate` puts a header in front of them and writes both into a buffer of that
size, without asking whether they fit.
-/

namespace LinkExtender

namespace UdpTunnel

/-- A call of `forward` keeps to the buffer: the message is dropped, or it is refused
and nothing is sent, or `encapsulate` writes no byte behind the end and `sendRaw`
reads none. -/
def KeepsToBuffer (t : UdpTunnel) (now : TimePoint) (call : ForwardCall) : Prop :=
  t.Suppressed now call.type call.fromNode call.message ∨
    (encapsulate ⟨call.fromNode, call.type, call.toNode, 0⟩ call.message = none ∧
      (t.forward now call.type call.fromNode call.message call.toNode).2 = []) ∨
    (∀ bytes ∈ encapsulatedBytes ⟨call.fromNode, call.type, call.toNode, 0⟩ call.message,
        bytes.length ≤ kMaxMessageSize) ∧
      encapsulatedSize call.type call.message.length ≤ kMaxMessageSize

instance (t : UdpTunnel) (now : TimePoint) (call : ForwardCall) :
    Decidable (t.KeepsToBuffer now call) :=
  inferInstanceAs (Decidable (_ ∨ (_ ∧ _) ∨ _))

/-- A call with a target node where its type needs one is never refused, so it keeps
to the buffer only where it fits or is dropped. -/
theorem keepsToBuffer_iff {t : UdpTunnel} {now : TimePoint} {call : ForwardCall}
    (hto : call.type.hasToNode = true → call.toNode ≠ none) :
    t.KeepsToBuffer now call ↔ t.Suppressed now call.type call.fromNode call.message ∨
      encapsulatedSize call.type call.message.length ≤ kMaxMessageSize := by
  obtain ⟨bytes, hbytes⟩ : ∃ bytes, encapsulatedBytes
      ⟨call.fromNode, call.type, call.toNode, 0⟩ call.message = some bytes := by
    apply Option.ne_none_iff_exists'.mp
    intro hnone
    obtain ⟨htype, hnode⟩ := encapsulatedBytes_eq_none.mp hnone
    exact hto htype hnode
  have hlen := length_encapsulatedBytes hbytes
  unfold KeepsToBuffer
  rw [encapsulate, hbytes]
  simp only [Option.map_some, reduceCtorEq, false_and, false_or, Option.mem_some_iff,
    forall_eq', hlen, and_self]

end UdpTunnel

namespace TunnelGateway

/-- The datagram that an event brings. -/
def datagram? : LanEvent → Option Datagram
  | .multicast _ datagram | .stateSocket _ _ datagram | .measurementSocket _ _ datagram _
  | .measurementSurrogateSocket _ _ datagram _ => some datagram
  | .localTimer | .remoteTimer => none

/-- How many bytes of its datagram an action keeps back. -/
def LanAction.stripped (link : LinkLibrary) : LanAction → ℕ
  | .announce _ _ state _ => link.measEndpointEntrySize state.endpoint
  | _ => 0

theorem datagram?_of_stateMessage? {g : TunnelGateway} {e : LanEvent} {sender : UdpEndpoint}
    {datagram : Datagram} {toNode : Option NodeId}
    (h : g.stateMessage? e = some (sender, datagram, toNode)) : datagram? e = some datagram := by
  cases e with
  | multicast sender' datagram' =>
      cases h
      rfl
  | stateSocket node sender' datagram' =>
      obtain ⟨-, heq⟩ := Option.ite_none_right_eq_some.mp h
      cases heq
      rfl
  | _ => cases h

theorem datagram?_of_measurementMessage? {g : TunnelGateway} {e : LanEvent}
    {sender : UdpEndpoint} {datagram : Datagram} {toNode drawn : NodeId}
    (h : g.measurementMessage? e = some (sender, datagram, toNode, drawn)) :
    datagram? e = some datagram := by
  cases e with
  | measurementSocket node sender' datagram' drawn' =>
      obtain ⟨-, heq⟩ := Option.ite_none_right_eq_some.mp h
      cases heq
      rfl
  | measurementSurrogateSocket node sender' datagram' drawn' =>
      obtain ⟨-, heq⟩ := Option.ite_none_right_eq_some.mp h
      cases heq
      rfl
  | _ => cases h

/-- What is handed to the tunnel is the datagram without the bytes that are kept back,
with a target node where the type needs one. -/
theorem call?_spec {link : LinkLibrary} {g : TunnelGateway} {now : TimePoint} {e : LanEvent}
    {call : ForwardCall} (h : (g.lanAction link now e).call? = some call) :
    (call.type.hasToNode = true → call.toNode ≠ none) ∧
      ∃ datagram, datagram? e = some datagram ∧ call.message.length =
        datagram.bytes.length - (g.lanAction link now e).stripped link := by
  have hreading := lanReading link g now e
  generalize g.lanAction link now e = a at hreading h ⊢
  cases hreading with
  | @announced e sender datagram toNode header payload state hmessage =>
      obtain rfl := Option.some.inj h
      refine ⟨fun htype ↦ ?_, datagram, datagram?_of_stateMessage? hmessage, ?_⟩
      · cases toNode with
        | none => simp [TunnelMessageType.hasToNode] at htype
        | some node => exact Option.some_ne_none node
      · rw [withoutEndpoint, List.length_take, min_eq_left (Nat.sub_le ..)]
        rfl
  | @left e sender datagram toNode header payload hmessage =>
      obtain rfl := Option.some.inj h
      exact ⟨nofun, datagram, datagram?_of_stateMessage? hmessage, rfl⟩
  | @minted e sender datagram toNode drawn hmessage =>
      obtain rfl := Option.some.inj h
      exact ⟨fun _ ↦ Option.some_ne_none toNode, datagram,
        datagram?_of_measurementMessage? hmessage, rfl⟩
  | @relayed e sender datagram toNode drawn node hmessage =>
      obtain rfl := Option.some.inj h
      exact ⟨fun _ ↦ Option.some_ne_none toNode, datagram,
        datagram?_of_measurementMessage? hmessage, rfl⟩
  | _ => cases h

end TunnelGateway

namespace Site

open EventMachine TunnelGateway

variable {link : LinkLibrary}

/-- The calls of `forward` that `forwardAll` makes keep to the buffer. -/
def KeepToBuffer : UdpTunnel → TimePoint → List GatewayOutput → Prop
  | _, _, [] => True
  | t, steadyNow, .forward call :: outs => t.KeepsToBuffer steadyNow call ∧
      KeepToBuffer (t.forward steadyNow call.type call.fromNode call.message call.toNode).1
        steadyNow outs
  | t, steadyNow, _ :: outs => KeepToBuffer t steadyNow outs

def decidableKeepToBuffer : ∀ t steadyNow outs, Decidable (KeepToBuffer t steadyNow outs)
  | _, _, [] => isTrue trivial
  | t, steadyNow, .forward call :: outs =>
      have := decidableKeepToBuffer
        (t.forward steadyNow call.type call.fromNode call.message call.toNode).1 steadyNow outs
      inferInstanceAs (Decidable (t.KeepsToBuffer steadyNow call ∧ KeepToBuffer _ _ _))
  | t, steadyNow, .send _ _ _ :: outs => decidableKeepToBuffer t steadyNow outs
  | t, steadyNow, .localObserver _ :: outs => decidableKeepToBuffer t steadyNow outs
  | t, steadyNow, .remoteObserver _ :: outs => decidableKeepToBuffer t steadyNow outs

instance (t : UdpTunnel) (steadyNow : TimePoint) (outs : List GatewayOutput) :
    Decidable (KeepToBuffer t steadyNow outs) :=
  decidableKeepToBuffer t steadyNow outs

/-- No datagram from the local network makes the tunnel overrun its buffer. -/
def NoOverrun (link : LinkLibrary) (s : Site) : SiteEvent → Prop
  | .lan i now e steadyNow => ∀ g ∈ s.gateways[i]?,
      KeepToBuffer s.tunnel steadyNow (emit (TunnelGateway.machine link) g (.lan now e))
  | .tunnel _ _ => True

instance (s : Site) : ∀ e, Decidable (NoOverrun link s e)
  | .lan _ _ _ _ => inferInstanceAs (Decidable (∀ _ ∈ _, KeepToBuffer _ _ _))
  | .tunnel _ _ => isTrue trivial

/-- The datagram fits behind the header of its type once the endpoint is stripped off,
or its message is a duplicate. -/
def FitsBuffer (link : LinkLibrary) (s : Site) : SiteEvent → Prop
  | .lan i now e steadyNow => ∀ g ∈ s.gateways[i]?, ∀ datagram ∈ datagram? e,
      ∀ call ∈ (g.lanAction link now e).call?,
        s.tunnel.Suppressed steadyNow call.type call.fromNode call.message ∨
          datagram.bytes.length + tunnelHeaderSize call.type ≤
            kMaxMessageSize + (g.lanAction link now e).stripped link
  | .tunnel _ _ => True

/-- A step makes at most one call, so that of its action is the one to look at. -/
theorem keepToBuffer_perform (t : UdpTunnel) (steadyNow now : TimePoint) (g : TunnelGateway)
    (a : LanAction) : KeepToBuffer t steadyNow (g.perform link now a).2 ↔
      ∀ call ∈ a.call?, t.KeepsToBuffer steadyNow call := by
  have hsilent : ∀ (outs : List GatewayOutput), (∀ call, .forward call ∉ outs) →
      KeepToBuffer t steadyNow outs := by
    intro outs hnone
    induction outs with
    | nil => trivial
    | cons out outs ih =>
        have hrest := ih fun call hmem ↦ hnone call (List.mem_cons_of_mem _ hmem)
        cases out with
        | forward call => exact absurd List.mem_cons_self (hnone call)
        | _ => exact hrest
  cases a with
  | ignore => simp [TunnelGateway.perform, LanAction.call?, KeepToBuffer]
  | announce sender ttl state call =>
      simp [TunnelGateway.perform, LanAction.call?, KeepToBuffer]
  | leave call => simp [TunnelGateway.perform, LanAction.call?, KeepToBuffer]
  | mint sender call => simp [TunnelGateway.perform, LanAction.call?, KeepToBuffer]
  | relay call => simp [TunnelGateway.perform, LanAction.call?, KeepToBuffer]
  | expireLocal =>
      have hcalls := hsilent (g.perform link now .expireLocal).2
        (by simp [TunnelGateway.perform, pruneLocal])
      exact iff_of_true hcalls (fun call hcall ↦ absurd hcall (Option.not_mem_none call))
  | expireRemote =>
      have hcalls := hsilent (g.perform link now .expireRemote).2
        (by simp [TunnelGateway.perform, pruneRemote])
      exact iff_of_true hcalls (fun call hcall ↦ absurd hcall (Option.not_mem_none call))

/-- Whatever the state of the site, a step stays inside the buffer exactly when the
datagram is short enough for the header that it gets. -/
theorem noOverrun_iff (link : LinkLibrary) (s : Site) (e : SiteEvent) :
    NoOverrun link s e ↔ FitsBuffer link s e := by
  cases e with
  | tunnel e ios => exact Iff.rfl
  | lan i now e steadyNow =>
      refine forall₂_congr fun g _ ↦ ?_
      rw [emit_lan, keepToBuffer_perform]
      cases hcall : (g.lanAction link now e).call? with
      | none => simp
      | some call =>
          obtain ⟨hto, datagram, hdatagram, hlen⟩ := call?_spec hcall
          have hheader := tunnelHeaderSize_le call.type
          simp only [Option.mem_some_iff, forall_eq', hdatagram,
            UdpTunnel.keepsToBuffer_iff hto, encapsulatedSize, hlen]
          refine or_congr_right ?_
          rw [kMaxMessageSize]
          omega

/-- A ping that fills the buffer of the measurement socket. -/
def longestPing : SiteEvent :=
  .lan 0 0 (.measurementSocket default (localhost 5000)
    ⟨_, (MessageBuffer.ofBytes pingMessage).size_eq.le⟩ drawnNode) 0

/-- `encapsulate` writes 19 bytes behind the end of its buffer. -/
theorem not_noOverrun_longestPing :
    ¬ NoOverrun .version1 (run (machine .version1) oneGateway.1 (pingFromLan.take 2))
      longestPing := by
  decide +kernel

end Site

end LinkExtender
