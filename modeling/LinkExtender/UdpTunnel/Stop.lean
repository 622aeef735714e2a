import LinkExtender.UdpTunnel.Connected
import LinkExtender.UdpTunnel.Routing

/-!
# After the tunnel was stopped

`stop_listening` says BYE to the connected peers and clears the tables, but it
leaves the entries of `mPeers` as they are.  Posted tasks and awaited datagrams
still run afterwards, and some of them send.
-/

namespace LinkExtender

namespace UdpTunnel

open EventMachine

/-- No tunnel datagram is sent. -/
def IsSilent (out : TunnelOutput) : Prop := ∀ dest bytes, out ≠ .send dest bytes

/-- Each connected peer is told BYE once, and nothing is sent by the later events. -/
structure SilentAfterStop (t : UdpTunnel) (later : List TunnelEvent) : Prop where
  byes : ∀ endpoint, sentTo endpoint t.stopListening.2 =
    if t.Connected endpoint then [controlBytes .tunnelBye] else []
  silent : ∀ out ∈ outputs machine t.stopListening.1 later, IsSilent out

/-- An event finds nothing to send: no peer is added, and a message is only
forwarded where no entry is connected, its type is routed, it repeats a recent
message or it lacks the target of its type. -/
def StaysSilent (t : UdpTunnel) : TunnelEvent → Prop
  | .addPeer _ | .acceptPeer _ => False
  | .forward now type fromNode message toNode =>
      (∀ peer ∈ t.mPeers, peer.state ≠ .connected) ∨ type.isRouted = true ∨
        t.Suppressed now type fromNode message ∨ (type.hasToNode = true ∧ toNode = none)
  | _ => True

/-! ## The farewell -/

theorem Seated.nodup_connected {t : UdpTunnel} (h : t.Seated) :
    ((t.mPeers.filter (fun peer ↦ peer.state = .connected)).map PeerEntry.endpoint).Nodup := by
  rw [List.Nodup, List.pairwise_map, List.pairwise_filter, List.pairwise_iff_getElem]
  intro i j hi hj hlt hci hcj heq
  have hposition := h.position_unique (List.getElem?_eq_getElem hi) (by simpa using hci)
    (List.getElem?_eq_getElem hj) (by simpa using hcj) heq
  omega

/-- No message is sent to a peer twice. -/
theorem Seated.nodup_recipients {t : UdpTunnel} (h : t.Seated) (type : TunnelMessageType)
    (toNode : Option NodeId) : (t.recipients type toNode).Nodup := by
  unfold recipients
  split
  · cases toNode with
    | none => exact List.nodup_nil
    | some node =>
        change (t.route node).toList.Nodup
        cases t.route node with
        | none => exact List.nodup_nil
        | some dest => exact List.nodup_singleton dest
  · exact h.nodup_connected

theorem sentTo_sendBye_of_ne {endpoint dest : UdpEndpoint} (h : dest ≠ endpoint) :
    sentTo endpoint (sendBye dest) = [] := by
  rw [sendBye_eq, sentTo_other h]

theorem Seated.sentTo_stopListening {t : UdpTunnel} (h : t.Seated) (endpoint : UdpEndpoint) :
    sentTo endpoint t.stopListening.2 =
      if t.Connected endpoint then [controlBytes .tunnelBye] else [] := by
  simp only [stopListening]
  split
  · obtain ⟨peer, hmem, rfl, hstate⟩ := ‹t.Connected endpoint›
    have hconnected : peer ∈ t.mPeers.filter (fun peer ↦ peer.state = .connected) :=
      List.mem_filter.mpr ⟨hmem, by simpa using hstate⟩
    rw [sentTo_flatMap_of_nodup h.nodup_connected hconnected
      fun q hq ↦ sentTo_sendBye_of_ne hq, sendBye_eq, sentTo_send_self]
  · rw [sentTo_flatMap, List.flatMap_eq_nil_iff]
    intro peer hpeer
    obtain ⟨hmem, hstate⟩ := List.mem_filter.mp hpeer
    apply sentTo_sendBye_of_ne
    rintro rfl
    exact ‹¬ t.Connected _› ⟨peer, hmem, rfl, by simpa using hstate⟩

/-! ## What is left to happen -/

/-- The tables that lead to peers are empty. -/
structure Stopped (t : UdpTunnel) : Prop where
  isRunning : t.isRunning = false
  index : ∀ endpoint, t.mEndpointToPeerIdx.find endpoint = none
  routes : ∀ node, t.remoteNodeIdToPeerIdx.find node = none

theorem stopped_stopListening (t : UdpTunnel) : t.stopListening.1.Stopped :=
  ⟨rfl, fun _ ↦ rfl, fun _ ↦ rfl⟩

theorem Stopped.peer? {t : UdpTunnel} (h : t.Stopped) (endpoint : UdpEndpoint) :
    t.peer? endpoint = none := by
  simp [UdpTunnel.peer?, h.index endpoint]

theorem Stopped.next {t : UdpTunnel} (h : t.Stopped) {e : TunnelEvent}
    (he : t.StaysSilent e) : (EventMachine.next machine t e).Stopped := by
  have heffect := effect t e
  generalize EventMachine.next machine t e = t', emit machine t e = out at heffect ⊢
  cases heffect with
  | hello _ _ hpeer | keepalive _ _ hpeer _ | bye _ _ hpeer | leave _ _ hpeer _
  | data _ _ _ hpeer _ =>
      rw [h.peer?] at hpeer
      cases hpeer
  | maintain hrun =>
      rw [h.isRunning] at hrun
      cases hrun
  | remove hknown =>
      rw [h.index] at hknown
      cases hknown
  | add | addKnown | accept | acceptKnown => exact absurd he id
  | _ => exact ⟨h.isRunning, h.index, h.routes⟩

theorem Stopped.recipients {t : UdpTunnel} (h : t.Stopped) {type : TunnelMessageType}
    (htype : type.isRouted = true) (toNode : Option NodeId) :
    t.recipients type toNode = [] := by
  unfold UdpTunnel.recipients
  cases toNode with
  | none => simp [htype]
  | some node => simp [htype, route, h.routes]

theorem Stopped.silent_forward_iff {t : UdpTunnel} (h : t.Stopped) (now : TimePoint)
    (type : TunnelMessageType) (fromNode : NodeId) (message : List UInt8)
    (toNode : Option NodeId) :
    (∀ out ∈ (t.forward now type fromNode message toNode).2, IsSilent out) ↔
      t.StaysSilent (.forward now type fromNode message toNode) := by
  rw [forward_snd]
  simp only [StaysSilent]
  by_cases hsuppressed : t.Suppressed now type fromNode message
  · simp [hsuppressed]
  · cases hmsg : encapsulate ⟨fromNode, type, toNode, 0⟩ message with
    | none =>
        have hrefused := encapsulate_eq_none.mp hmsg
        simp only at hrefused
        simp [hsuppressed, hrefused]
    | some msg =>
        have haccepted : ¬ (type.hasToNode = true ∧ toNode = none) := by
          rw [← @encapsulate_eq_none ⟨fromNode, type, toNode, 0⟩ message, hmsg]
          exact Option.some_ne_none msg
        simp only [hsuppressed, if_false, haccepted, or_false]
        cases hrouted : type.isRouted with
        | true => simp [h.recipients hrouted]
        | false =>
            simp only [UdpTunnel.recipients, hrouted, Bool.false_eq_true, if_false, or_false]
            constructor
            · intro hsilent peer hpeer hstate
              refine hsilent _ (List.mem_map_of_mem (List.mem_map_of_mem
                (List.mem_filter.mpr ⟨hpeer, by simpa using hstate⟩))) _ _ rfl
            · intro hnone out hout
              obtain ⟨dest, hdest, -⟩ := List.mem_map.mp hout
              obtain ⟨peer, hpeer, -⟩ := List.mem_map.mp hdest
              obtain ⟨hmem, hstate⟩ := List.mem_filter.mp hpeer
              exact absurd (by simpa using hstate) (hnone peer hmem)

theorem not_silent_sendHello (dest : UdpEndpoint) : ¬ ∀ out ∈ sendHello dest, IsSilent out := by
  intro hsilent
  rw [sendHello_eq] at hsilent
  exact hsilent _ (List.mem_singleton_self _) _ _ rfl

/-- A stopped tunnel sends at an event exactly when it is not one of these. -/
theorem Stopped.silent_emit_iff {t : UdpTunnel} (h : t.Stopped) (e : TunnelEvent) :
    (∀ out ∈ emit machine t e, IsSilent out) ↔ t.StaysSilent e := by
  have hforward := h.silent_forward_iff
  have heffect := effect t e
  generalize EventMachine.next machine t e = t', emit machine t e = out at heffect ⊢
  cases heffect with
  | hello _ _ hpeer | keepalive _ _ hpeer _ | bye _ _ hpeer | leave _ _ hpeer _
  | data _ _ _ hpeer _ =>
      rw [h.peer?] at hpeer
      cases hpeer
  | maintain hrun =>
      rw [h.isRunning] at hrun
      cases hrun
  | remove hknown | addKnown hknown | acceptKnown hknown =>
      rw [h.index] at hknown
      cases hknown
  | add | accept => exact iff_of_false (not_silent_sendHello _) id
  | forward hout => rw [hout, hforward]
  | unknown => simp [IsSilent, StaysSilent]
  | _ => simp [StaysSilent]

/-- Stopping a tunnel ends its sending exactly when no peer is added later and
nothing is forwarded later that a still connected entry would be sent. -/
theorem silentAfterStop_iff (initialPeers : List UdpEndpoint) (es later : List TunnelEvent) :
    (run machine (create initialPeers) es).SilentAfterStop later ↔
      Along machine StaysSilent (run machine (create initialPeers) es).stopListening.1
        later := by
  have hseated : (run machine (create initialPeers) es).Seated :=
    run_invariant machine (I := Seated) (fun _ e h ↦ seated_next h e)
      (seated_create initialPeers) es
  have hiff := forall_outputs_iff_along machine (fun _ _ h he ↦ Stopped.next h he)
    (fun _ e h ↦ Stopped.silent_emit_iff h e)
    (stopped_stopListening (run machine (create initialPeers) es)) later
  constructor
  · intro h
    exact hiff.mp h.silent
  · intro h
    exact ⟨hseated.sentTo_stopListening, hiff.mpr h⟩

/-- A connected peer hears of a broadcast that a gateway was still waiting for. -/
theorem not_silentAfterStop_broadcast :
    ¬ (run machine (create [localhost 1])
        [.receive 0 (localhost 1) (controlDatagram .tunnelHello)]).SilentAfterStop
      [.forward 0 .broadcast default [] none] := by
  intro h
  apply h.silent (.send (localhost 1) (controlBytes .broadcast)) _ _ _ rfl
  decide +kernel

end UdpTunnel

end LinkExtender
