import LinkExtender.Site.Transparency
import LinkExtender.TunnelGateway.Surrogates

/-!
# What surrogates multicast stays on the local network

The gateways of a site may share a network, and then each of them hears what the
surrogates of the others multicast.  A gateway recognises such a datagram by the
surrogate that it holds itself for the node in the Link header.  It was given one
with the same message, and loses it to the remote tracker only, after the deadline
of the node.
-/

namespace LinkExtender

open EventMachine

/-- The deadline of the node's pending timeout. -/
def PeerTracker.deadline? (t : PeerTracker) (node : NodeId) : Option TimePoint :=
  (t.mTimeouts.entries.find? (fun entry ↦ entry.2 = node)).map Prod.fst

theorem PeerTracker.deadline?_eq_some {t : PeerTracker} {node : NodeId} {deadline : TimePoint} :
    t.deadline? node = some deadline ↔ (deadline, node) ∈ t.mTimeouts.entries := by
  rw [deadline?, Option.map_eq_some_iff]
  constructor
  · rintro ⟨⟨deadline', node'⟩, hfind, rfl⟩
    have hnode : node' = node := by simpa using List.find?_some hfind
    exact hnode ▸ List.mem_of_find?_eq_some hfind
  · intro hmem
    obtain ⟨entry, hentry⟩ : ∃ entry,
        t.mTimeouts.entries.find? (fun entry ↦ entry.2 = node) = some entry := by
      apply Option.isSome_iff_exists.mp
      rw [List.find?_isSome]
      exact ⟨_, hmem, by simp⟩
    have hnode : entry.2 = node := by simpa using List.find?_some hentry
    refine ⟨entry, hentry, ?_⟩
    rw [List.inj_on_of_nodup_map t.mTimeouts.nodup (List.mem_of_find?_eq_some hentry) hmem hnode]

namespace TunnelGateway

variable {link : LinkLibrary} {g : TunnelGateway}

/-- The messages that `observe` acts on. -/
def isState : TunnelMessageType → Bool
  | .broadcast | .unicast | .byebye => true
  | _ => false

/-- The messages that a surrogate multicasts. -/
def isMulticast : TunnelMessageType → Bool
  | .broadcast | .byebye => true
  | _ => false

def reading : GatewayEvent → TimePoint
  | .lan now _ => now
  | .tunnel io _ => io.now

/-- The clock readings of a gateway, and the deadline that its last state message of
a node through the tunnel has left the node with. -/
structure Watch where
  readings : List TimePoint
  deadlines : NodeId → Option TimePoint

def Watch.initial : Watch := ⟨[], fun _ ↦ none⟩

def watch (link : LinkLibrary) (w : Watch) (g : TunnelGateway) (e : GatewayEvent) : Watch where
  readings := reading e :: w.readings
  deadlines :=
    match e with
    | .tunnel io message =>
        if isState message.type = true ∧ (g.destination link message).isSome = true then
          Function.update w.deadlines message.fromNode
            ((next (machine link) g (.tunnel io message)).mRemoteTracker.deadline?
              message.fromNode)
        else w.deadlines
    | .lan _ _ => w.deadlines

/-- No clock reading lies behind the node's deadline. -/
def Watch.InTime (w : Watch) (node : NodeId) : Prop :=
  ∀ deadline ∈ w.deadlines node, ∀ now ∈ w.readings, now ≤ deadline

/-- Until the node's deadline has passed, the gateway holds a surrogate for it. -/
def Standing (g : TunnelGateway) (w : Watch) (node : NodeId) : Prop :=
  w.InTime node → g.hasRemoteNodeSurrogate node = true

/-- The pending timeouts are those that were noted. -/
def Noted (g : TunnelGateway) (w : Watch) : Prop :=
  ∀ deadline node, (deadline, node) ∈ g.mRemoteTracker.mTimeouts.entries →
    w.deadlines node = some deadline

/-- Opening the sockets of a surrogate succeeds. -/
def Opens : GatewayEvent → Prop
  | .lan _ _ => True
  | .tunnel io _ => io.nodeSockets.isSome = true

/-! ## One step of a gateway -/

theorem mem_entries_prune {t : PeerTracker} {now deadline : TimePoint} {node : NodeId}
    (hmem : (deadline, node) ∈ (t.prune now).mTimeouts.entries) :
    (deadline, node) ∈ t.mTimeouts.entries := by
  simp only [PeerTracker.prune, PeerTracker.mTimeouts_schedulePruning] at hmem
  exact (DeadlineQueue.mem_entries_expire.mp hmem).1

theorem mem_entries_observedTracker_of_ne {tracker : PeerTracker} {now deadline : TimePoint}
    {message : LocalMessage} {node : NodeId} (hne : node ≠ message.fromNode)
    (hmem : (deadline, node) ∈ (observedTracker link tracker now message).mTimeouts.entries) :
    (deadline, node) ∈ tracker.mTimeouts.entries := by
  unfold observedTracker at hmem
  split at hmem
  · rw [PeerTracker.updateTimeout, PeerTracker.mTimeouts_schedulePruning,
      DeadlineQueue.mem_entries_set, Prod.mk.injEq] at hmem
    exact (hmem.resolve_left fun heq ↦ hne heq.2).1
  · split at hmem
    · rw [PeerTracker.remove, DeadlineQueue.mem_entries_erase] at hmem
      exact hmem.1
    · exact hmem

theorem observedTracker_of_not_isState {tracker : PeerTracker} {now : TimePoint}
    {message : LocalMessage} (htype : isState message.type = false) :
    observedTracker link tracker now message = tracker := by
  unfold observedTracker announces
  cases hkind : message.type <;> simp_all [isState]

/-- A tunnel message leaves the other nodes' timeouts alone, and those of its sender
too if it is no state message or cannot be addressed. -/
theorem mem_entries_tunnel {io : LocalIo} {message : LocalMessage} {deadline : TimePoint}
    {node : NodeId}
    (hother : node ≠ message.fromNode ∨ isState message.type = false ∨
      g.destination link message = none)
    (hmem : (deadline, node) ∈
      (g.forwardMessageLocally link io message).1.mRemoteTracker.mTimeouts.entries) :
    (deadline, node) ∈ g.mRemoteTracker.mTimeouts.entries := by
  have hdelivery := delivery link g io message
  generalize (g.forwardMessageLocally link io message).1 = g' at hdelivery hmem
  generalize (g.forwardMessageLocally link io message).2.1 = buffer at hdelivery
  generalize (g.forwardMessageLocally link io message).2.2 = out at hdelivery
  cases hdelivery with
  | delivered _ hdest _ _ =>
      rw [observe_fst] at hmem
      rcases hother with hne | hstate | hnone
      · exact mem_entries_observedTracker_of_ne hne hmem
      · rwa [observedTracker_of_not_isState hstate] at hmem
      · simp [hnone] at hdest
  | _ => exact hmem

theorem noted_watch {w : Watch} (h : Noted g w) (e : GatewayEvent) :
    Noted (next (machine link) g e) (watch link w g e) := by
  intro deadline node hmem
  cases e with
  | lan now e =>
      apply h
      rw [next_lan] at hmem
      by_cases ha : g.lanAction link now e = .expireRemote
      · rw [ha] at hmem
        exact mem_entries_prune hmem
      · rwa [(perform_remote g now ha).1] at hmem
  | tunnel io message =>
      simp only [watch]
      split
      · by_cases hnode : node = message.fromNode
        · subst hnode
          rw [Function.update_self]
          exact PeerTracker.deadline?_eq_some.mpr hmem
        · rw [Function.update_of_ne hnode]
          exact h _ _ (mem_entries_tunnel (Or.inl hnode) hmem)
      · rename_i hquiet
        apply h
        apply mem_entries_tunnel _ hmem
        by_cases hstate : isState message.type = true
        · have hnone : ¬ (g.destination link message).isSome = true :=
            fun hdest ↦ hquiet ⟨hstate, hdest⟩
          exact Or.inr (Or.inr (by simpa using hnone))
        · exact Or.inr (Or.inl (by simpa using hstate))

/-- A message that goes out behind a node's surrogate leaves the node with one. -/
theorem hasRemoteNodeSurrogate_tunnel {io : LocalIo} {message : LocalMessage} {node : NodeId}
    (hio : io.nodeSockets.isSome = true)
    (hnode : g.hasRemoteNodeSurrogate node = true ∨
      node = message.fromNode ∧ message.type ≠ .measurementPing ∧
        (g.destination link message).isSome = true) :
    (g.forwardMessageLocally link io message).1.hasRemoteNodeSurrogate node = true := by
  have hdelivery := delivery link g io message
  generalize (g.forwardMessageLocally link io message).1 = g' at hdelivery ⊢
  generalize (g.forwardMessageLocally link io message).2.1 = buffer at hdelivery
  generalize (g.forwardMessageLocally link io message).2.2 = out at hdelivery
  cases hdelivery with
  | unaddressed hdest =>
      rcases hnode with hold | ⟨-, -, hsome⟩
      · exact hold
      · simp [hdest] at hsome
  | pingUnopened htype | ping htype =>
      rcases hnode with hold | ⟨-, hping, -⟩
      · exact hold
      · exact absurd htype hping
  | unopened _ _ hnone =>
      obtain ⟨surrogate, hsockets⟩ := Option.isSome_iff_exists.mp hio
      simp [nodeSurrogate, hsockets] at hnone
  | unroutable =>
      rw [hasRemoteNodeSurrogate_withNodeSurrogate]
      exact hnode.symm.imp (fun hnew ↦ hnew.1) (fun hold ↦ hold)
  | delivered =>
      rw [observe_fst]
      apply hasRemoteNodeSurrogate_withNodeSurrogate.mpr
      exact hnode.symm.imp (fun hnew ↦ hnew.1) (fun hold ↦ hold)

theorem Watch.InTime.of_watch {w : Watch} {e : GatewayEvent} {node : NodeId}
    (h : (watch link w g e).InTime node)
    (hdeadlines : (watch link w g e).deadlines node = w.deadlines node) : w.InTime node := by
  intro deadline hdeadline now hnow
  exact h deadline (hdeadlines ▸ hdeadline) now (List.mem_cons_of_mem _ hnow)

theorem standing_watch {w : Watch} {node : NodeId} (hnoted : Noted g w)
    (h : Standing g w node) {e : GatewayEvent} (hopens : Opens e) :
    Standing (next (machine link) g e) (watch link w g e) node := by
  intro htime
  cases e with
  | lan now e =>
      have hold : g.hasRemoteNodeSurrogate node = true := h (htime.of_watch rfl)
      rw [next_lan, hasRemoteNodeSurrogate]
      by_cases ha : g.lanAction link now e = .expireRemote
      · rw [ha, perform, find_nodeSurrogate_pruneRemote]
        by_cases hexpired : node ∈ g.mRemoteTracker.expired now
        · -- its deadline lies before this reading of the clock
          obtain ⟨deadline, hmem, hlt⟩ := DeadlineQueue.mem_due.mp hexpired
          have hle := htime deadline (hnoted _ _ hmem) now List.mem_cons_self
          exact absurd hle (not_le.mpr hlt)
        · rwa [if_neg hexpired]
      · rwa [(perform_remote g now ha).2.1]
  | tunnel io message =>
      rw [next_tunnel]
      apply hasRemoteNodeSurrogate_tunnel hopens
      by_cases hnew : node = message.fromNode ∧ isState message.type = true ∧
          (g.destination link message).isSome = true
      · refine Or.inr ⟨hnew.1, ?_, hnew.2.2⟩
        intro hping
        simp [hping, isState] at hnew
      · apply Or.inl
        apply h
        apply htime.of_watch
        simp only [watch]
        split
        · rename_i hstate
          rw [Function.update_of_ne fun hnode ↦ hnew ⟨hnode, hstate⟩]
        · rfl

/-- The datagram that a surrogate multicasts begins with the message. -/
theorem exists_tail_of_send {io : LocalIo} {message : LocalMessage}
    (htype : isMulticast message.type = true) {source dest : UdpEndpoint} {bytes : List UInt8}
    (hmem : .send source bytes dest ∈ (g.forwardMessageLocally link io message).2.2) :
    ∃ tail, bytes = message.buffer.bytes.take message.size ++ tail := by
  have hdelivery := delivery link g io message
  generalize (g.forwardMessageLocally link io message).1 = g' at hdelivery
  generalize (g.forwardMessageLocally link io message).2.1 = buffer at hdelivery
  generalize (g.forwardMessageLocally link io message).2.2 = out at hdelivery hmem
  cases hdelivery with
  | unaddressed | pingUnopened | unopened | unroutable => cases hmem
  | ping hping => simp [hping, isMulticast] at htype
  | @delivered _ _ s =>
      rcases List.mem_append.mp hmem with hmem | hmem
      · have hnone := mem_datagrams.mpr hmem
        rw [datagrams_observe] at hnone
        cases hnone
      · unfold sendUdpMessage at hmem
        split at hmem
        · cases hmem
        · obtain ⟨-, rfl, -⟩ := GatewayOutput.send.inj (List.mem_singleton.mp hmem)
          unfold outgoing
          dsimp only
          split
          · rename_i hfits
            exact ⟨_, MessageBuffer.take_bytes_write_end hfits.2.le⟩
          · exact ⟨[], by simp⟩

theorem isSome_destination_of_isMulticast {message : LocalMessage}
    (htype : isMulticast message.type = true) : (g.destination link message).isSome = true := by
  unfold destination
  cases hkind : message.type with
  | broadcast | byebye => rfl
  | _ => simp [hkind, isMulticast] at htype

/-- A gateway ignores the multicast of a node that it holds a surrogate for. -/
theorem emit_multicast_of_surrogate {now : TimePoint} {sender : UdpEndpoint}
    {datagram : Datagram}
    (h : g.hasRemoteNodeSurrogate (link.parseMessageHeader datagram.bytes).1.ident = true) :
    emit (machine link) g (.lan now (.multicast sender datagram)) = [] := by
  rw [emit_lan, lanAction, stateAction]
  simp only [h, Bool.or_true, if_true]
  rfl

end TunnelGateway

namespace Site

open TunnelGateway (Watch Standing Noted isMulticast)

variable {link : LinkLibrary}

/-- The datagrams that surrogates multicast in a step of the site. -/
def multicasts (link : LinkLibrary) (s : Site) : SiteEvent → List (List UInt8)
  | .tunnel e ios =>
      if (localCalls (emit UdpTunnel.machine s.tunnel e)).any
          (fun message ↦ isMulticast message.type) then
        (emit (machine link) s (.tunnel e ios)).filterMap fun
          | .gateway _ (.send _ bytes _) => some bytes
          | _ => none
      else []
  | .lan .. => []

/-- The watches of all gateways, and what surrogates have multicast so far. -/
structure Airwaves where
  watches : ℕ → Watch
  aired : List (List UInt8)

def Airwaves.initial : Airwaves := ⟨fun _ ↦ Watch.initial, []⟩

def listen (link : LinkLibrary) (a : Airwaves) (s : Site) (e : SiteEvent) : Airwaves where
  watches i :=
    match s.gateways[i]?, s.eventAt i e with
    | some g, some ge => TunnelGateway.watch link (a.watches i) g ge
    | _, _ => a.watches i
  aired := a.aired ++ multicasts link s e

/-- The Link header that the message begins with names the node in its envelope,
whatever else follows. -/
def CarriesIdent (link : LinkLibrary) (message : LocalMessage) : Prop :=
  ∀ tail, (link.parseMessageHeader (message.buffer.bytes.take message.size ++ tail)).1.ident =
    message.fromNode

/-- Sockets can be opened, and what is to be multicast carries its node. -/
def WellSent (link : LinkLibrary) (p : Site × Airwaves) : SiteEvent → Prop
  | .tunnel e ios => (∀ i, (ios i).nodeSockets.isSome = true) ∧
      ∀ message ∈ localCalls (emit UdpTunnel.machine p.1.tunnel e),
        isMulticast message.type = true → CarriesIdent link message
  | .lan .. => True

/-- Something goes into the tunnel, or a local observer is told. -/
def IsRelay : SiteOutput → Prop
  | .gateway _ (.forward _) | .gateway _ (.localObserver _) | .tunnel (.send _ _) => True
  | _ => False

/-- A gateway that hears what a surrogate has multicast, before the deadline that it
has for the node, does not pass it on. -/
def NotRelayed (link : LinkLibrary) (p : Site × Airwaves) : SiteEvent → Prop
  | .lan i now (.multicast sender datagram) steadyNow =>
      datagram.bytes ∈ p.2.aired →
      (∀ deadline ∈ (p.2.watches i).deadlines
          (link.parseMessageHeader datagram.bytes).1.ident,
        ∀ reading ∈ now :: (p.2.watches i).readings, reading ≤ deadline) →
      ∀ out ∈ emit (machine link) p.1 (.lan i now (.multicast sender datagram) steadyNow),
        ¬ IsRelay out
  | _ => True

/-! ## One step of the site -/

/-- What holds at every gateway: its timeouts are noted, and it stands in for the
nodes whose surrogates have multicast. -/
def OnGuard (link : LinkLibrary) (p : Site × Airwaves) : Prop :=
  ∀ (i : ℕ) (g : TunnelGateway), p.1.gateways[i]? = some g →
    Noted g (p.2.watches i) ∧ ∀ bytes ∈ p.2.aired,
      Standing g (p.2.watches i) (link.parseMessageHeader bytes).1.ident

theorem mem_outputsAt {i : ℕ} {o : GatewayOutput} {out : List SiteOutput}
    (h : .gateway i o ∈ out) : o ∈ outputsAt i out := by
  apply List.mem_filterMap.mpr
  exact ⟨_, h, by simp⟩

/-- A message that the tunnel hands on reaches every gateway. -/
theorem eventAt_of_mem_localCalls {s : Site} {e : TunnelEvent} {message : LocalMessage}
    (h : message ∈ localCalls (emit UdpTunnel.machine s.tunnel e)) (ios : ℕ → LocalIo)
    (i : ℕ) : s.eventAt i (.tunnel e ios) = some (.tunnel (ios i) message) := by
  have hexternal : isExternal e = true := by
    obtain ⟨now, sender, datagram, rfl, -⟩ := exists_receive_of_mem_localCalls h
    rfl
  have hhead : (localCalls (emit UdpTunnel.machine s.tunnel e)).head? = some message := by
    have hlen := length_localCalls_emit_le s.tunnel e
    generalize localCalls (emit UdpTunnel.machine s.tunnel e) = calls at h hlen ⊢
    cases calls with
    | nil => cases h
    | cons call calls =>
        have hnil : calls = [] := List.length_eq_zero_iff.mp (by simpa using hlen)
        subst hnil
        rw [List.mem_singleton.mp h]
        rfl
  simp [eventAt, hexternal, hhead]

/-- Where something is multicast, every gateway is handed the message. -/
theorem exists_message_of_multicasts {s : Site} {e : SiteEvent} {bytes : List UInt8}
    (h : bytes ∈ multicasts link s e) :
    ∃ (e' : TunnelEvent) (ios : ℕ → LocalIo) (message : LocalMessage),
      e = .tunnel e' ios ∧ isMulticast message.type = true ∧
      message ∈ localCalls (emit UdpTunnel.machine s.tunnel e') ∧
      (∀ i, s.eventAt i e = some (.tunnel (ios i) message)) ∧
      ∃ (i : ℕ) (source dest : UdpEndpoint) (g : TunnelGateway), s.gateways[i]? = some g ∧
        .send source bytes dest ∈ (g.forwardMessageLocally link (ios i) message).2.2 := by
  cases e with
  | lan => cases h
  | tunnel e' ios =>
      simp only [multicasts] at h
      split at h
      · rename_i hany
        obtain ⟨message, hmessage, htype⟩ := List.any_eq_true.mp hany
        have hevent := eventAt_of_mem_localCalls hmessage ios
        refine ⟨e', ios, message, rfl, htype, hmessage, hevent, ?_⟩
        obtain ⟨out, hout, hsend⟩ := List.mem_filterMap.mp h
        split at hsend <;> cases hsend
        rename_i i source dest
        have hat := mem_outputsAt hout
        rw [outputsAt_emit, hevent] at hat
        cases hg : s.gateways[i]? with
        | none =>
            rw [hg] at hat
            cases hat
        | some g =>
            rw [hg] at hat
            exact ⟨i, source, dest, g, hg, hat⟩
      · cases h

/-- What is multicast names the node of the message that every gateway is handed. -/
theorem ident_of_multicasts {p : Site × Airwaves} {e : SiteEvent}
    (hsent : WellSent link p e) {bytes : List UInt8} (h : bytes ∈ multicasts link p.1 e) :
    ∃ (ios : ℕ → LocalIo) (message : LocalMessage),
      (∀ i, p.1.eventAt i e = some (.tunnel (ios i) message)) ∧
      (∀ i, (ios i).nodeSockets.isSome = true) ∧ isMulticast message.type = true ∧
      (link.parseMessageHeader bytes).1.ident = message.fromNode := by
  obtain ⟨e', ios, message, rfl, htype, hmessage, hevent, i, source, dest, g, -, hmem⟩ :=
    exists_message_of_multicasts h
  obtain ⟨hopens, hcarries⟩ := hsent
  obtain ⟨tail, rfl⟩ := TunnelGateway.exists_tail_of_send htype hmem
  exact ⟨ios, message, hevent, hopens, htype, hcarries message hmessage htype tail⟩

theorem opens_of_wellSent {p : Site × Airwaves} {e : SiteEvent} (hsent : WellSent link p e)
    {i : ℕ} {ge : GatewayEvent} (hevent : p.1.eventAt i e = some ge) :
    TunnelGateway.Opens ge := by
  cases ge with
  | lan => trivial
  | tunnel io message =>
      obtain ⟨e', ios, rfl, rfl, -⟩ := event_of_eventAt_tunnel hevent
      exact hsent.1 i

theorem onGuard_next {p : Site × Airwaves} {e : SiteEvent} (h : OnGuard link p)
    (hsent : WellSent link p e) :
    OnGuard link (next (monitored (machine link) (listen link)) p e) := by
  rw [next_monitored]
  intro i g' hg'
  rw [getElem?_gateways_next] at hg'
  obtain ⟨g, hg, rfl⟩ := Option.map_eq_some_iff.mp hg'
  obtain ⟨hnoted, hstanding⟩ := h i g hg
  cases hevent : p.1.eventAt i e with
  | none =>
      simp only [listen, hg, hevent, Option.elim_none]
      refine ⟨hnoted, ?_⟩
      intro bytes hbytes
      rcases List.mem_append.mp hbytes with hold | hnew
      · exact hstanding bytes hold
      · obtain ⟨ios, message, hall, -⟩ := ident_of_multicasts hsent hnew
        rw [hall] at hevent
        cases hevent
  | some ge =>
      simp only [listen, hg, hevent, Option.elim_some]
      refine ⟨TunnelGateway.noted_watch hnoted ge, ?_⟩
      intro bytes hbytes
      rcases List.mem_append.mp hbytes with hold | hnew
      · exact TunnelGateway.standing_watch hnoted (hstanding bytes hold)
          (opens_of_wellSent hsent hevent)
      · obtain ⟨ios, message, hall, hopens, htype, hident⟩ := ident_of_multicasts hsent hnew
        rw [hall] at hevent
        obtain rfl := Option.some.inj hevent
        intro _
        rw [hident]
        apply TunnelGateway.hasRemoteNodeSurrogate_tunnel (hopens i)
        refine Or.inr ⟨rfl, ?_, TunnelGateway.isSome_destination_of_isMulticast htype⟩
        intro hping
        simp [hping, isMulticast] at htype

theorem notRelayed_of_onGuard {p : Site × Airwaves} (h : OnGuard link p) (e : SiteEvent) :
    NotRelayed link p e := by
  cases e with
  | tunnel => trivial
  | lan i now e steadyNow =>
      cases e with
      | multicast sender datagram =>
          intro haired htime out hout
          cases hg : p.1.gateways[i]? with
          | none =>
              simp only [emit, machine, hg] at hout
              cases hout
          | some g =>
              have hsurrogate := (h i g hg).2 _ haired fun deadline hdeadline reading hreading ↦
                htime deadline hdeadline reading (List.mem_cons_of_mem _ hreading)
              have hsilent := @TunnelGateway.emit_multicast_of_surrogate link g now sender
                datagram hsurrogate
              rw [emit, machine_lan hg, hsilent] at hout
              cases hout
      | _ => trivial

theorem onGuard_create (initialPeers : List UdpEndpoint) (interfaces : List IpAddress) :
    OnGuard link (create initialPeers interfaces, Airwaves.initial) := by
  intro i g hg
  obtain ⟨interface, -, rfl⟩ : ∃ interface, interfaces[i]? = some interface ∧
      TunnelGateway.create interface = g := by
    simpa [create] using hg
  constructor
  · intro deadline node hmem
    cases hmem
  · intro bytes hbytes
    cases hbytes

/-- In every run in which sockets can be opened and messages carry their nodes, no
gateway passes on what a surrogate of the site has multicast. -/
theorem along_notRelayed (link : LinkLibrary) (initialPeers : List UdpEndpoint)
    (interfaces : List IpAddress) (es : List SiteEvent)
    (h : Along (monitored (machine link) (listen link)) (WellSent link)
      (create initialPeers interfaces, Airwaves.initial) es) :
    Along (monitored (machine link) (listen link)) (NotRelayed link)
      (create initialPeers interfaces, Airwaves.initial) es :=
  along_of_invariant _ (fun _ _ hguard hsent ↦ onGuard_next hguard hsent)
    (fun _ e hguard _ ↦ notRelayed_of_onGuard hguard e)
    (onGuard_create initialPeers interfaces) h

/-- Two gateways on one network.  The zero node is announced through the tunnel, and
the second gateway hears the surrogate of the first. -/
def overheard : List SiteEvent :=
  [hello (localhost 1),
    .tunnel (.receive 0 (localhost 1)
        ⟨tunnelHeader .broadcast default none 20 ++ aliveBody, by decide⟩)
      (fun i ↦ TunnelGateway.openSockets (10000 + 2 * UInt16.ofNat i)),
    .lan 1 (seconds 1) (.multicast (localhost 10000)
      ⟨aliveBody ++ LinkLibrary.endpointEntry (localhost 10001), by decide⟩) 0]

theorem along_notRelayed_overheard :
    Along (monitored (machine .version1) (listen .version1)) (NotRelayed .version1)
      (create [localhost 1] [TunnelGateway.kLocalIfAddr, TunnelGateway.kLocalIfAddr],
        Airwaves.initial) overheard := by
  apply along_notRelayed
  refine ⟨⟨fun _ ↦ rfl, ?_⟩, ⟨fun _ ↦ rfl, ?_⟩, trivial, trivial⟩
  · intro message hmessage
    exfalso
    revert message
    decide +kernel
  · intro message hmessage _ tail
    have hbytes : message.buffer.bytes.take message.size = aliveBody ∧
        message.fromNode = default := by
      revert message
      decide +kernel
    rw [hbytes.1, hbytes.2]
    rfl

end Site

end LinkExtender
