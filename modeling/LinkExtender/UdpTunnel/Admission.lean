import LinkExtender.UdpTunnel.PeerTable

/-!
# Admission of unknown peers

The tunnel together with the host that answers its unknown-peer callback.  Each
callback hands out one accept/reject pair; a decision posts a task that runs at
some later time.  A pair decides once, so a second use of it does nothing here.
-/

namespace LinkExtender

namespace UdpTunnel

open EventMachine

/-- What has become of an accept/reject pair. -/
inductive RequestStatus where
  | undecided
  | posted (accepted : Bool)
  | executed (accepted : Bool)
deriving DecidableEq

structure Request where
  endpoint : UdpEndpoint
  status : RequestStatus
deriving DecidableEq

namespace Request

def isOpen (q : Request) : Bool :=
  match q.status with
  | .undecided | .posted _ => true
  | .executed _ => false

def decide (q : Request) (accepted : Bool) : Request :=
  if q.status = .undecided then { q with status := .posted accepted } else q

def execute (q : Request) : Request :=
  match q.status with
  | .posted accepted => { q with status := .executed accepted }
  | _ => q

@[simp] theorem endpoint_decide (q : Request) (accepted : Bool) :
    (q.decide accepted).endpoint = q.endpoint := by
  unfold decide
  split <;> rfl

@[simp] theorem isOpen_decide (q : Request) (accepted : Bool) :
    (q.decide accepted).isOpen = q.isOpen := by
  unfold decide
  split
  · simp [isOpen, ‹q.status = _›]
  · rfl

theorem decide_status_executed (q : Request) (accepted verdict : Bool) :
    (q.decide accepted).status = .executed verdict ↔ q.status = .executed verdict := by
  unfold decide
  split
  · simp [‹q.status = _›]
  · rfl

end Request

structure Host where
  tunnel : UdpTunnel
  requests : List Request

/-- What can happen to a tunnel and its host before `stop_listening`. -/
inductive HostEvent where
  | receive (now : TimePoint) (sender : UdpEndpoint) (datagram : Datagram)
  | runMaintenance (now : TimePoint)
  | addPeer (endpoint : UdpEndpoint)
  | removePeer (endpoint : UdpEndpoint)
  | forward (now : TimePoint) (type : TunnelMessageType) (fromNode : NodeId)
      (message : List UInt8) (toNode : Option NodeId)
  | decide (request : ℕ) (accepted : Bool)
  | execute (request : ℕ)

namespace Host

def start (initialPeers : List UdpEndpoint) : Host := ⟨create initialPeers, []⟩

def posted (h : Host) (request : ℕ) : Option TunnelEvent :=
  match h.requests[request]? with
  | some ⟨endpoint, .posted true⟩ => some (.acceptPeer endpoint)
  | some ⟨endpoint, .posted false⟩ => some (.rejectPeer endpoint)
  | _ => none

/-- What an event is to the tunnel. -/
def tunnelEvent (h : Host) : HostEvent → Option TunnelEvent
  | .receive now sender datagram => some (.receive now sender datagram)
  | .runMaintenance now => some (.runMaintenance now)
  | .addPeer endpoint => some (.addPeer endpoint)
  | .removePeer endpoint => some (.removePeer endpoint)
  | .forward now type fromNode message toNode =>
      some (.forward now type fromNode message toNode)
  | .decide _ _ => none
  | .execute request => h.posted request

def settled (h : Host) : HostEvent → List Request
  | .decide request accepted =>
      h.requests.modify request (fun q ↦ q.decide accepted)
  | .execute request => h.requests.modify request Request.execute
  | _ => h.requests

def opened (out : List TunnelOutput) : List Request :=
  out.filterMap fun o ↦
    match o with
    | .unknownPeer endpoint => some ⟨endpoint, .undecided⟩
    | _ => none

def machine : Machine Host HostEvent TunnelOutput := fun h e ↦
  match h.tunnelEvent e with
  | none => (⟨h.tunnel, h.settled e⟩, [])
  | some te =>
      (⟨next UdpTunnel.machine h.tunnel te,
          h.settled e ++ opened (emit UdpTunnel.machine h.tunnel te)⟩,
        emit UdpTunnel.machine h.tunnel te)

theorem machine_of_some {h : Host} {e : HostEvent} {te : TunnelEvent}
    (hte : h.tunnelEvent e = some te) :
    next machine h e = ⟨next UdpTunnel.machine h.tunnel te,
      h.settled e ++ opened (emit UdpTunnel.machine h.tunnel te)⟩ ∧
    emit machine h e = emit UdpTunnel.machine h.tunnel te := by
  simp [next, emit, machine, hte]

theorem machine_of_none {h : Host} {e : HostEvent} (hte : h.tunnelEvent e = none) :
    next machine h e = ⟨h.tunnel, h.settled e⟩ ∧ emit machine h e = [] := by
  simp [next, emit, machine, hte]

theorem posted_eq_some {h : Host} {request : ℕ} {te : TunnelEvent}
    (hte : h.posted request = some te) :
    ∃ endpoint accepted, h.requests[request]? = some ⟨endpoint, .posted accepted⟩ ∧
      te = if accepted then .acceptPeer endpoint else .rejectPeer endpoint := by
  unfold posted at hte
  split at hte
  · exact ⟨_, true, ‹_›, (Option.some.inj hte).symm⟩
  · exact ⟨_, false, ‹_›, (Option.some.inj hte).symm⟩
  · cases hte

theorem execute_of_posted_eq_none {h : Host} {request : ℕ}
    (hte : h.posted request = none) : h.settled (.execute request) = h.requests := by
  apply List.ext_getElem?
  intro i
  rw [settled, List.getElem?_modify]
  by_cases hi : request = i
  · subst hi
    cases hget : h.requests[request]? with
    | none => rfl
    | some q =>
        obtain ⟨endpoint, status⟩ := q
        cases status with
        | posted accepted => cases accepted <;> simp [posted, hget] at hte
        | _ => simp [Request.execute]
  · simp [hi]

end Host

/-! ## What has been admitted -/

/-- The endpoint was in the initial list, passed to `addPeer` or accepted. -/
def Admitted (initialPeers : List UdpEndpoint) (past : List HostEvent)
    (endpoint : UdpEndpoint) : Prop :=
  endpoint ∈ initialPeers ∨ .addPeer endpoint ∈ past ∨
    ⟨endpoint, .executed true⟩ ∈ (run Host.machine (Host.start initialPeers) past).requests

/-- The endpoint has sent a HELLO since it was admitted. -/
def Greeted (initialPeers : List UdpEndpoint) (past : List HostEvent)
    (endpoint : UdpEndpoint) : Prop :=
  ∃ before now datagram after message,
    past = before ++ .receive now endpoint datagram :: after ∧
    messageOf datagram = some message ∧ message.type = .tunnelHello ∧
    Admitted initialPeers before endpoint

/-- A datagram from the endpoint is forwarded, changes a route or is answered. -/
def ActsFor (h : Host) (e : HostEvent) (endpoint : UdpEndpoint) : Prop :=
  (∃ message, .forwardLocally message ∈ emit Host.machine h e) ∨
    (next Host.machine h e).tunnel.remoteNodeIdToPeerIdx ≠
      h.tunnel.remoteNodeIdToPeerIdx ∨
    ∃ bytes, .send endpoint bytes ∈ emit Host.machine h e

/-- What admission control promises of an event after a run. -/
structure Controlled (initialPeers : List UdpEndpoint) (past : List HostEvent)
    (e : HostEvent) : Prop where
  admitted : ∀ now sender datagram, e = .receive now sender datagram →
    ActsFor (run Host.machine (Host.start initialPeers) past) e sender →
    Admitted initialPeers past sender
  greeted : ∀ now sender datagram message, e = .receive now sender datagram →
    messageOf datagram = some message → message.type.isControl = false →
    ActsFor (run Host.machine (Host.start initialPeers) past) e sender →
    Greeted initialPeers past sender
  sends : ∀ dest bytes,
    .send dest bytes ∈ emit Host.machine (run Host.machine (Host.start initialPeers) past) e →
    Admitted initialPeers (past ++ [e]) dest
  callback : ∀ endpoint,
    .unknownPeer endpoint ∈
      emit Host.machine (run Host.machine (Host.start initialPeers) past) e →
    endpoint ∉ (run Host.machine (Host.start initialPeers) past).tunnel.endpoints ∧
    ∀ q ∈ (run Host.machine (Host.start initialPeers) past).requests,
      q.endpoint = endpoint → q.status = .executed true

/-! ## Steps of the tunnel -/

/-- Only a peer's datagram acts, and data only while the peer is connected. -/
theorem exists_peer_of_acts {t : UdpTunnel} {now : TimePoint}
    {sender : UdpEndpoint} {datagram : Datagram}
    (hacts : (∃ message, .forwardLocally message ∈
        emit machine t (.receive now sender datagram)) ∨
      (next machine t (.receive now sender datagram)).remoteNodeIdToPeerIdx ≠
        t.remoteNodeIdToPeerIdx ∨
      ∃ bytes, .send sender bytes ∈ emit machine t (.receive now sender datagram)) :
    ∃ idx peer, t.peer? sender = some (idx, peer) ∧
      ∀ message, messageOf datagram = some message → message.type.isControl = false →
        peer.state = .connected := by
  have heffect := effect t (.receive now sender datagram)
  generalize next machine t (.receive now sender datagram) = t',
    emit machine t (.receive now sender datagram) = out at heffect hacts
  have hcontrol : ∀ {m : LocalMessage} {type : TunnelMessageType},
      messageOf datagram = some m → m.type = type → type.isControl = true →
      ∀ message, messageOf datagram = some message → message.type.isControl = false →
        False := by
    intro m type hm htype htrue message hmessage hfalse
    obtain rfl := Option.some.inj (hm.symm.trans hmessage)
    rw [htype, htrue] at hfalse
    cases hfalse
  cases heffect with
  | hello hmessage htype hpeer =>
      exact ⟨_, _, hpeer, fun m hm hdata ↦ (hcontrol hmessage htype rfl m hm hdata).elim⟩
  | keepalive hmessage htype hpeer hstate => exact ⟨_, _, hpeer, fun _ _ _ ↦ hstate⟩
  | bye hmessage htype hpeer =>
      exact ⟨_, _, hpeer, fun m hm hdata ↦ (hcontrol hmessage htype rfl m hm hdata).elim⟩
  | leave hmessage htype hpeer hstate => exact ⟨_, _, hpeer, fun _ _ _ ↦ hstate⟩
  | data hmessage hdata htype hpeer hstate => exact ⟨_, _, hpeer, fun _ _ _ ↦ hstate⟩
  | unknown hmessage htype hpeer =>
      rcases hacts with ⟨message, hmem⟩ | hroutes | ⟨bytes, hmem⟩
      · simp at hmem
      · exact absurd rfl hroutes
      · simp at hmem
  | ignored =>
      rcases hacts with ⟨message, hmem⟩ | hroutes | ⟨bytes, hmem⟩
      · cases hmem
      · exact absurd rfl hroutes
      · cases hmem

theorem connected_next {t : UdpTunnel} (h : t.Indexed) {e : TunnelEvent}
    {peer : PeerEntry} (hmem : peer ∈ (next machine t e).mPeers)
    (hstate : peer.state = .connected) :
    (∃ old ∈ t.mPeers, old.state = .connected ∧ old.endpoint = peer.endpoint) ∨
    (∃ now datagram message, e = .receive now peer.endpoint datagram ∧
      messageOf datagram = some message ∧ message.type = .tunnelHello ∧
      peer.endpoint ∈ t.endpoints) := by
  have hset : ∀ {idx : ℕ} {new : PeerEntry}, peer ∈ (t.setPeer idx new).mPeers →
      peer ∈ t.mPeers ∨ peer = new := fun hp ↦ List.mem_or_eq_of_mem_set hp
  have heffect := effect t e
  generalize next machine t e = t', emit machine t e = out at heffect hmem
  cases heffect with
  | @hello now sender datagram message idx old hmessage htype hpeer =>
      obtain ⟨hendpoints, rfl⟩ := h.mem_endpoints hpeer
      rcases hset hmem with hold | rfl
      · exact Or.inl ⟨peer, hold, hstate, rfl⟩
      · exact Or.inr ⟨now, datagram, message, rfl, hmessage, htype, hendpoints⟩
  | keepalive hmessage htype hpeer hconnected =>
      rcases hset hmem with hold | rfl
      · exact Or.inl ⟨peer, hold, hstate, rfl⟩
      · exact Or.inl ⟨_, List.mem_of_getElem? (peer?_eq_some.mp hpeer).2, hconnected, rfl⟩
  | bye hmessage htype hpeer =>
      rcases hset hmem with hold | rfl
      · exact Or.inl ⟨peer, hold, hstate, rfl⟩
      · cases hstate
  | maintain hrun =>
      rw [mPeers_runMaintenance hrun] at hmem
      obtain ⟨old, hold, rfl⟩ := List.mem_map.mp hmem
      exact Or.inl ⟨old, hold, (state_maintained_eq_connected.mp hstate).1,
        (endpoint_maintained _ _).symm⟩
  | add | accept =>
      rcases List.mem_append.mp hmem with hold | hnew
      · exact Or.inl ⟨peer, hold, hstate, rfl⟩
      · rw [List.mem_singleton.mp hnew] at hstate
        cases hstate
  | remove => exact Or.inl ⟨peer, List.mem_of_mem_eraseIdx hmem, hstate, rfl⟩
  | _ => exact Or.inl ⟨peer, hmem, hstate, rfl⟩

theorem opened_of_sends {out : List TunnelOutput}
    (h : ∀ o ∈ out, ∃ dest bytes, o = .send dest bytes) : Host.opened out = [] := by
  rw [Host.opened, List.filterMap_eq_nil_iff]
  intro o ho
  obtain ⟨dest, bytes, rfl⟩ := h o ho
  rfl

theorem pending_next (t : UdpTunnel) (e : TunnelEvent) :
    (Host.opened (emit machine t e) = [] ∧
      (next machine t e).mPendingPeers = t.mPendingPeers ∧
      (next machine t e).mRejectedPeers = t.mRejectedPeers ∧
      (∀ endpoint, e ≠ .acceptPeer endpoint ∧ e ≠ .rejectPeer endpoint)) ∨
    (∃ now sender datagram, e = .receive now sender datagram ∧
      t.peer? sender = none ∧ sender ∉ t.mPendingPeers ∧ sender ∉ t.mRejectedPeers ∧
      emit machine t e = [.unknownPeer sender] ∧
      (next machine t e).mPendingPeers = insert sender t.mPendingPeers ∧
      (next machine t e).mRejectedPeers = t.mRejectedPeers) ∨
    (∃ endpoint, e = .acceptPeer endpoint ∧ Host.opened (emit machine t e) = [] ∧
      (next machine t e).mPendingPeers = t.mPendingPeers.erase endpoint ∧
      (next machine t e).mRejectedPeers = t.mRejectedPeers) ∨
    (∃ endpoint, e = .rejectPeer endpoint ∧ Host.opened (emit machine t e) = [] ∧
      (next machine t e).mPendingPeers = t.mPendingPeers.erase endpoint ∧
      (next machine t e).mRejectedPeers = insert endpoint t.mRejectedPeers) := by
  have heffect := effect t e
  generalize next machine t e = t', emit machine t e = out at heffect ⊢
  cases heffect with
  | hello hmessage htype hpeer =>
      refine Or.inl ⟨?_, rfl, rfl, by simp⟩
      split
      · rfl
      · rw [sendHello_eq]
        rfl
  | unknown hmessage htype hpeer hrejected hpending =>
      exact Or.inr (Or.inl ⟨_, _, _, rfl, hpeer, hpending, hrejected, rfl, rfl, rfl⟩)
  | @maintain now hrun =>
      refine Or.inl ⟨opened_of_sends ?_, ?_, ?_, by simp⟩
      · intro o ho
        obtain ⟨peer, -, hpeer⟩ := List.mem_flatMap.mp ho
        unfold maintenanceOutput at hpeer
        split at hpeer
        · split at hpeer
          · cases hpeer
          · exact ⟨_, _, by simpa using hpeer⟩
        · exact ⟨_, _, by simpa using hpeer⟩
      · simp [runMaintenance, hrun]
      · simp [runMaintenance, hrun]
  | @forward now type fromNode message toNode out hout =>
      refine Or.inl ⟨opened_of_sends ?_, rfl, rfl, by simp⟩
      intro o ho
      rw [hout] at ho
      obtain ⟨dest, -, bytes, rfl⟩ := mem_forward_snd ho
      exact ⟨dest, bytes, rfl⟩
  | accept hnew =>
      refine Or.inr (Or.inr (Or.inl ⟨_, rfl, ?_, rfl, rfl⟩))
      rw [sendHello_eq]
      rfl
  | acceptKnown => exact Or.inr (Or.inr (Or.inl ⟨_, rfl, rfl, rfl, rfl⟩))
  | reject => exact Or.inr (Or.inr (Or.inr ⟨_, rfl, rfl, rfl, rfl⟩))
  | add =>
      refine Or.inl ⟨?_, rfl, rfl, by simp⟩
      rw [sendHello_eq]
      rfl
  | remove =>
      refine Or.inl ⟨?_, rfl, rfl, by simp⟩
      rw [sendBye_eq]
      rfl
  | _ => exact Or.inl ⟨rfl, rfl, rfl, by simp⟩

/-! ## The requests -/

/-- The open requests are those of the pending endpoints, one for each, and a
rejection is remembered. -/
structure Consistent (h : Host) : Prop where
  indexed : h.tunnel.Indexed
  pending : ∀ endpoint, endpoint ∈ h.tunnel.mPendingPeers ↔
    ∃ q ∈ h.requests, q.endpoint = endpoint ∧ q.isOpen = true
  single : ∀ (i j : ℕ) (p q : Request), h.requests[i]? = some p →
    h.requests[j]? = some q → p.isOpen = true → q.isOpen = true →
    p.endpoint = q.endpoint → i = j
  rejected : ∀ q ∈ h.requests, q.status = .executed false →
    q.endpoint ∈ h.tunnel.mRejectedPeers

theorem Consistent.accepted {h : Host} (hc : Consistent h) {endpoint : UdpEndpoint}
    (hpending : endpoint ∉ h.tunnel.mPendingPeers)
    (hrejected : endpoint ∉ h.tunnel.mRejectedPeers) {q : Request}
    (hq : q ∈ h.requests) (hendpoint : q.endpoint = endpoint) :
    q.status = .executed true := by
  have hclosed : q.isOpen = false := by
    rw [Bool.eq_false_iff]
    exact fun hopen ↦ hpending ((hc.pending endpoint).mpr ⟨q, hq, hendpoint, hopen⟩)
  cases hstatus : q.status with
  | undecided => simp [Request.isOpen, hstatus] at hclosed
  | posted accepted => simp [Request.isOpen, hstatus] at hclosed
  | executed accepted =>
      cases accepted with
      | true => rfl
      | false => exact absurd (hendpoint ▸ hc.rejected q hq hstatus) hrejected

theorem Consistent.decide {h : Host} (hc : Consistent h) (request : ℕ)
    (accepted : Bool) :
    Consistent ⟨h.tunnel, h.settled (.decide request accepted)⟩ := by
  have hget : ∀ (i : ℕ) (q : Request), (h.settled (.decide request accepted))[i]? =
      some q → ∃ p, h.requests[i]? = some p ∧
        (q = p ∨ q = p.decide accepted) := by
    intro i q hq
    rw [Host.settled, List.getElem?_modify] at hq
    obtain ⟨p, hp, rfl⟩ := Option.map_eq_some_iff.mp hq
    refine ⟨p, hp, ?_⟩
    split
    · exact Or.inr rfl
    · exact Or.inl rfl
  have hsame : ∀ {p q : Request}, (q = p ∨ q = p.decide accepted) →
      q.endpoint = p.endpoint ∧ q.isOpen = p.isOpen ∧
        (q.status = .executed false ↔ p.status = .executed false) := by
    rintro p q (rfl | rfl)
    · exact ⟨rfl, rfl, Iff.rfl⟩
    · exact ⟨p.endpoint_decide accepted, p.isOpen_decide accepted,
        p.decide_status_executed accepted false⟩
  refine ⟨hc.indexed, ?_, ?_, ?_⟩
  · intro endpoint
    rw [hc.pending]
    constructor
    · rintro ⟨p, hp, hendpoint, hopen⟩
      obtain ⟨i, hi⟩ := List.getElem?_of_mem hp
      have hq : ∃ q, (h.settled (.decide request accepted))[i]? = some q ∧
          (q = p ∨ q = p.decide accepted) := by
        rw [Host.settled, List.getElem?_modify, hi]
        refine ⟨_, rfl, ?_⟩
        split
        · exact Or.inr rfl
        · exact Or.inl rfl
      obtain ⟨q, hq, heq⟩ := hq
      obtain ⟨h₁, h₂, -⟩ := hsame heq
      exact ⟨q, List.mem_of_getElem? hq, h₁.trans hendpoint, h₂.trans hopen⟩
    · rintro ⟨q, hq, hendpoint, hopen⟩
      obtain ⟨i, hi⟩ := List.getElem?_of_mem hq
      obtain ⟨p, hp, heq⟩ := hget i q hi
      obtain ⟨h₁, h₂, -⟩ := hsame heq
      exact ⟨p, List.mem_of_getElem? hp, h₁.symm.trans hendpoint, h₂.symm.trans hopen⟩
  · intro i j p q hp hq hpo hqo heq
    obtain ⟨p', hp', hpeq⟩ := hget i p hp
    obtain ⟨q', hq', hqeq⟩ := hget j q hq
    obtain ⟨hp₁, hp₂, -⟩ := hsame hpeq
    obtain ⟨hq₁, hq₂, -⟩ := hsame hqeq
    exact hc.single i j p' q' hp' hq' (hp₂ ▸ hpo) (hq₂ ▸ hqo)
      (hp₁.symm.trans (heq.trans hq₁))
  · intro q hq hstatus
    obtain ⟨i, hi⟩ := List.getElem?_of_mem hq
    obtain ⟨p, hp, heq⟩ := hget i q hi
    obtain ⟨h₁, -, h₃⟩ := hsame heq
    rw [h₁]
    exact hc.rejected p (List.mem_of_getElem? hp) (h₃.mp hstatus)

theorem Consistent.execute {h : Host} (hc : Consistent h) {request : ℕ}
    {endpoint : UdpEndpoint} {accepted : Bool}
    (hget : h.requests[request]? = some ⟨endpoint, .posted accepted⟩) {t' : UdpTunnel}
    (hindexed : t'.Indexed)
    (hpending : t'.mPendingPeers = h.tunnel.mPendingPeers.erase endpoint)
    (hrejected : h.tunnel.mRejectedPeers ⊆ t'.mRejectedPeers)
    (hreject : accepted = false → endpoint ∈ t'.mRejectedPeers) :
    Consistent ⟨t', h.settled (.execute request)⟩ := by
  have hsettled : ∀ i : ℕ, (h.settled (.execute request))[i]? =
      if i = request then some ⟨endpoint, .executed accepted⟩ else h.requests[i]? := by
    intro i
    rw [Host.settled, List.getElem?_modify]
    by_cases hi : request = i
    · subst hi
      simp [hget, Request.execute]
    · rw [if_neg (Ne.symm hi)]
      simp [hi]
  have hother : ∀ (i : ℕ) (q : Request), (h.settled (.execute request))[i]? = some q →
      q.isOpen = true → i ≠ request ∧ h.requests[i]? = some q := by
    intro i q hq hopen
    rw [hsettled] at hq
    by_cases hi : i = request
    · rw [if_pos hi] at hq
      obtain rfl := Option.some.inj hq
      cases hopen
    · rw [if_neg hi] at hq
      exact ⟨hi, hq⟩
  refine ⟨hindexed, ?_, ?_, ?_⟩
  · intro e
    rw [hpending, Finset.mem_erase, hc.pending]
    constructor
    · rintro ⟨hne, q, hq, hqe, hopen⟩
      obtain ⟨i, hi⟩ := List.getElem?_of_mem hq
      have hir : i ≠ request := by
        rintro rfl
        obtain rfl := Option.some.inj (hget.symm.trans hi)
        exact hne hqe.symm
      refine ⟨q, List.mem_of_getElem? (i := i) ?_, hqe, hopen⟩
      rw [hsettled, if_neg hir]
      exact hi
    · rintro ⟨q, hq, hqe, hopen⟩
      obtain ⟨i, hi⟩ := List.getElem?_of_mem hq
      obtain ⟨hir, hi⟩ := hother i q hi hopen
      refine ⟨?_, q, List.mem_of_getElem? hi, hqe, hopen⟩
      rintro rfl
      apply hir
      exact hc.single i request q _ hi hget hopen rfl hqe
  · intro i j p q hp hq hpo hqo heq
    exact hc.single i j p q (hother i p hp hpo).2 (hother j q hq hqo).2 hpo hqo heq
  · intro q hq hstatus
    obtain ⟨i, hi⟩ := List.getElem?_of_mem hq
    rw [hsettled] at hi
    split at hi
    · obtain rfl := Option.some.inj hi
      apply hreject
      exact RequestStatus.executed.inj hstatus
    · apply hrejected
      exact hc.rejected q (List.mem_of_getElem? hi) hstatus

theorem Consistent.ask {h : Host} (hc : Consistent h) {endpoint : UdpEndpoint}
    (hnew : endpoint ∉ h.tunnel.mPendingPeers) {t' : UdpTunnel} (hindexed : t'.Indexed)
    (hpending : t'.mPendingPeers = insert endpoint h.tunnel.mPendingPeers)
    (hrejected : t'.mRejectedPeers = h.tunnel.mRejectedPeers) :
    Consistent ⟨t', h.requests ++ [⟨endpoint, .undecided⟩]⟩ := by
  have hfree : ∀ (i : ℕ) (q : Request), h.requests[i]? = some q → q.isOpen = true →
      q.endpoint ≠ endpoint := fun i q hi hopen heq ↦
    hnew ((hc.pending endpoint).mpr ⟨q, List.mem_of_getElem? hi, heq, hopen⟩)
  have hget : ∀ (i : ℕ) (q : Request),
      (h.requests ++ [⟨endpoint, .undecided⟩])[i]? = some q →
      h.requests[i]? = some q ∨ (i = h.requests.length ∧ q.endpoint = endpoint) := by
    intro i q hi
    rcases Nat.lt_trichotomy i h.requests.length with hlt | heq | hgt
    · rw [List.getElem?_append_left hlt] at hi
      exact Or.inl hi
    · subst heq
      rw [List.getElem?_concat_length] at hi
      exact Or.inr ⟨rfl, (Option.some.inj hi) ▸ rfl⟩
    · rw [List.getElem?_append_right hgt.le, List.getElem?_eq_none (by simp; omega)] at hi
      cases hi
  refine ⟨hindexed, ?_, ?_, ?_⟩
  · intro e
    simp only [hpending, Finset.mem_insert, hc.pending, List.mem_append,
      List.mem_singleton]
    constructor
    · rintro (rfl | ⟨q, hq, hrest⟩)
      · exact ⟨_, Or.inr rfl, rfl, rfl⟩
      · exact ⟨q, Or.inl hq, hrest⟩
    · rintro ⟨q, hq | rfl, hqe, hopen⟩
      · exact Or.inr ⟨q, hq, hqe, hopen⟩
      · exact Or.inl hqe.symm
  · intro i j p q hp hq hpo hqo heq
    rcases hget i p hp with hp' | ⟨rfl, hpe⟩ <;> rcases hget j q hq with hq' | ⟨rfl, hqe⟩
    · exact hc.single i j p q hp' hq' hpo hqo heq
    · exact absurd (heq.trans hqe) (hfree i p hp' hpo)
    · exact absurd (heq.symm.trans hpe) (hfree j q hq' hqo)
    · rfl
  · intro q hq hstatus
    rw [hrejected]
    rcases List.mem_append.mp hq with hq | hq
    · exact hc.rejected q hq hstatus
    · rw [List.mem_singleton.mp hq] at hstatus
      cases hstatus

theorem Consistent.congr {h : Host} (hc : Consistent h) {t' : UdpTunnel}
    (hindexed : t'.Indexed) (hpending : t'.mPendingPeers = h.tunnel.mPendingPeers)
    (hrejected : t'.mRejectedPeers = h.tunnel.mRejectedPeers) :
    Consistent ⟨t', h.requests⟩ := by
  refine ⟨hindexed, ?_, hc.single, ?_⟩
  · intro endpoint
    rw [hpending]
    exact hc.pending endpoint
  · intro q hq hstatus
    rw [hrejected]
    exact hc.rejected q hq hstatus

/-- An event that runs no posted task leaves the requests alone and is neither
an acceptance nor a rejection. -/
theorem tunnelEvent_cases {h : Host} {e : HostEvent} {te : TunnelEvent}
    (hte : h.tunnelEvent e = some te) :
    (∃ request endpoint accepted, e = .execute request ∧
      h.requests[request]? = some ⟨endpoint, .posted accepted⟩ ∧
      te = if accepted then .acceptPeer endpoint else .rejectPeer endpoint) ∨
    (h.settled e = h.requests ∧
      ∀ endpoint, te ≠ .acceptPeer endpoint ∧ te ≠ .rejectPeer endpoint) := by
  cases e with
  | execute request =>
      obtain ⟨endpoint, accepted, hget, heq⟩ := Host.posted_eq_some hte
      exact Or.inl ⟨request, endpoint, accepted, rfl, hget, heq⟩
  | decide => cases hte
  | _ =>
      obtain rfl := Option.some.inj hte
      exact Or.inr ⟨rfl, by simp⟩

theorem consistent_next {h : Host} (hc : Consistent h) (e : HostEvent) :
    Consistent (next Host.machine h e) := by
  cases hte : h.tunnelEvent e with
  | none =>
      rw [(Host.machine_of_none hte).1]
      cases e with
      | decide request accepted => exact hc.decide request accepted
      | execute request =>
          rw [Host.execute_of_posted_eq_none hte]
          exact hc
      | _ => cases hte
  | some te =>
      rw [(Host.machine_of_some hte).1]
      have hindexed := indexed_next hc.indexed te
      rcases tunnelEvent_cases hte with
        ⟨request, endpoint, accepted, rfl, hget, rfl⟩ | ⟨hsettled, hneither⟩
      · rcases pending_next h.tunnel
          (if accepted then .acceptPeer endpoint else .rejectPeer endpoint) with
          ⟨-, -, -, hno⟩ | ⟨_, _, _, heq, -⟩ | ⟨endpoint', heq, hopened, hpending, hrejected⟩ |
          ⟨endpoint', heq, hopened, hpending, hrejected⟩
        · cases accepted
          · exact absurd rfl (hno endpoint).2
          · exact absurd rfl (hno endpoint).1
        · cases accepted <;> cases heq
        · cases accepted <;> cases heq
          rw [hopened, List.append_nil]
          exact hc.execute hget hindexed hpending hrejected.symm.subset
            (fun h ↦ by cases h)
        · cases accepted <;> cases heq
          rw [hopened, List.append_nil]
          refine hc.execute hget hindexed hpending ?_ fun _ ↦ ?_
          · rw [hrejected]
            exact Finset.subset_insert _ _
          · rw [hrejected]
            exact Finset.mem_insert_self _ _
      · rw [hsettled]
        rcases pending_next h.tunnel te with
          ⟨hopened, hpending, hrejected, -⟩ |
          ⟨_, sender, _, -, -, hnew, -, hemit, hpending, hrejected⟩ |
          ⟨endpoint, heq, -⟩ | ⟨endpoint, heq, -⟩
        · rw [hopened, List.append_nil]
          exact hc.congr hindexed hpending hrejected
        · rw [hemit]
          exact hc.ask hnew hindexed hpending hrejected
        · exact absurd heq (hneither endpoint).1
        · exact absurd heq (hneither endpoint).2

/-! ## Every run -/

theorem mem_modify_of_fixed {l : List Request} {q : Request} {f : Request → Request}
    (hq : q ∈ l) (hf : f q = q) (n : ℕ) : q ∈ l.modify n f := by
  obtain ⟨i, hi⟩ := List.getElem?_of_mem hq
  apply List.mem_of_getElem? (i := i)
  rw [List.getElem?_modify, hi]
  by_cases hn : n = i <;> simp [hn, hf]

theorem executed_mem_next {h : Host} {endpoint : UdpEndpoint} {accepted : Bool}
    (hq : ⟨endpoint, .executed accepted⟩ ∈ h.requests) (e : HostEvent) :
    ⟨endpoint, .executed accepted⟩ ∈ (next Host.machine h e).requests := by
  have hsettled : ⟨endpoint, .executed accepted⟩ ∈ h.settled e := by
    cases e with
    | decide request verdict => exact mem_modify_of_fixed hq rfl request
    | execute request => exact mem_modify_of_fixed hq rfl request
    | _ => exact hq
  cases hte : h.tunnelEvent e with
  | none =>
      rw [(Host.machine_of_none hte).1]
      exact hsettled
  | some te =>
      rw [(Host.machine_of_some hte).1]
      exact List.mem_append_left _ hsettled

theorem Admitted.concat {initialPeers : List UdpEndpoint} {past : List HostEvent}
    {endpoint : UdpEndpoint} (h : Admitted initialPeers past endpoint) (e : HostEvent) :
    Admitted initialPeers (past ++ [e]) endpoint := by
  rcases h with hinitial | hadded | haccepted
  · exact Or.inl hinitial
  · exact Or.inr (Or.inl (List.mem_append_left _ hadded))
  · refine Or.inr (Or.inr ?_)
    rw [run_concat]
    exact executed_mem_next haccepted e

theorem Greeted.concat {initialPeers : List UdpEndpoint} {past : List HostEvent}
    {endpoint : UdpEndpoint} (h : Greeted initialPeers past endpoint) (e : HostEvent) :
    Greeted initialPeers (past ++ [e]) endpoint := by
  obtain ⟨before, now, datagram, after, message, rfl, hrest⟩ := h
  exact ⟨before, now, datagram, after ++ [e], message, by simp, hrest⟩

/-- Every peer has been admitted, and every connected peer has greeted. -/
structure Guarded (initialPeers : List UdpEndpoint) (past : List HostEvent)
    (h : Host) : Prop where
  consistent : Consistent h
  admitted : ∀ endpoint ∈ h.tunnel.endpoints, Admitted initialPeers past endpoint
  greeted : ∀ peer ∈ h.tunnel.mPeers, peer.state = .connected →
    Greeted initialPeers past peer.endpoint

theorem admitted_of_adds {initialPeers : List UdpEndpoint} {past : List HostEvent}
    {e : HostEvent} {te : TunnelEvent} {endpoint : UdpEndpoint}
    (hte : (run Host.machine (Host.start initialPeers) past).tunnelEvent e = some te)
    (hadds : te = .addPeer endpoint ∨ te = .acceptPeer endpoint) :
    Admitted initialPeers (past ++ [e]) endpoint := by
  rcases tunnelEvent_cases hte with
    ⟨request, endpoint', accepted, rfl, hget, rfl⟩ | ⟨-, hneither⟩
  · have haccepted : accepted = true ∧ endpoint' = endpoint := by
      cases accepted with
      | true => simpa using hadds
      | false => simp at hadds
    obtain ⟨rfl, rfl⟩ := haccepted
    refine Or.inr (Or.inr ?_)
    rw [run_concat, (Host.machine_of_some hte).1]
    refine List.mem_append_left _ (List.mem_of_getElem? (i := request) ?_)
    rw [Host.settled, List.getElem?_modify, hget]
    simp [Request.execute]
  · rcases hadds with rfl | rfl
    · cases e with
      | addPeer endpoint' =>
          obtain rfl := TunnelEvent.addPeer.inj (Option.some.inj hte)
          exact Or.inr (Or.inl (List.mem_append_right _ (List.mem_singleton_self _)))
      | execute request =>
          obtain ⟨_, accepted, -, heq⟩ := Host.posted_eq_some hte
          cases accepted <;> cases heq
      | _ => cases hte
    · exact absurd rfl (hneither endpoint).1

theorem guarded_next {initialPeers : List UdpEndpoint} {past : List HostEvent}
    (hg : Guarded initialPeers past (run Host.machine (Host.start initialPeers) past))
    (e : HostEvent) :
    Guarded initialPeers (past ++ [e])
      (next Host.machine (run Host.machine (Host.start initialPeers) past) e) := by
  have hconsistent := consistent_next hg.consistent e
  cases hte : (run Host.machine (Host.start initialPeers) past).tunnelEvent e with
  | none =>
      rw [(Host.machine_of_none hte).1] at hconsistent ⊢
      exact ⟨hconsistent, fun endpoint hmem ↦ (hg.admitted endpoint hmem).concat e,
        fun peer hmem hstate ↦ (hg.greeted peer hmem hstate).concat e⟩
  | some te =>
      rw [(Host.machine_of_some hte).1] at hconsistent ⊢
      refine ⟨hconsistent, ?_, ?_⟩
      · intro endpoint hmem
        rcases endpoints_next _ te with heq | ⟨added, hadds, -, heq⟩ | ⟨_, idx, -, -, heq⟩
        · rw [heq] at hmem
          exact (hg.admitted endpoint hmem).concat e
        · rw [heq, List.mem_append, List.mem_singleton] at hmem
          rcases hmem with hmem | rfl
          · exact (hg.admitted endpoint hmem).concat e
          · exact admitted_of_adds hte hadds
        · rw [heq] at hmem
          exact (hg.admitted endpoint (List.mem_of_mem_eraseIdx hmem)).concat e
      · intro peer hmem hstate
        rcases connected_next hg.consistent.indexed hmem hstate with
          ⟨old, hold, holdState, heq⟩ | ⟨now, datagram, message, rfl, hmessage, htype, hknown⟩
        · rw [← heq]
          exact (hg.greeted old hold holdState).concat e
        · have he : e = .receive now peer.endpoint datagram := by
            rcases tunnelEvent_cases hte with ⟨_, _, accepted, _, _, heq⟩ | ⟨-, -⟩
            · cases accepted <;> cases heq
            · cases e with
              | receive now' sender datagram' =>
                  obtain ⟨rfl, rfl, rfl⟩ :=
                    TunnelEvent.receive.inj (Option.some.inj hte)
                  rfl
              | execute request =>
                  obtain ⟨_, accepted, -, heq⟩ := Host.posted_eq_some hte
                  cases accepted <;> cases heq
              | _ => cases hte
          exact ⟨past, now, datagram, [], message, by rw [he], hmessage, htype,
            hg.admitted _ hknown⟩

theorem guarded_run (initialPeers : List UdpEndpoint) (past : List HostEvent) :
    Guarded initialPeers past (run Host.machine (Host.start initialPeers) past) := by
  refine history_induction Host.machine (Host.start initialPeers)
    (I := Guarded initialPeers) ?_ (fun past e h ↦ guarded_next h e) past
  have hstart : ∀ peer ∈ (create initialPeers).mPeers, peer.state = .disconnected :=
    fun _ ↦ state_create
  refine ⟨⟨indexed_create initialPeers, ?_, ?_, ?_⟩, ?_, ?_⟩
  · intro endpoint
    simp [Host.start, mPendingPeers_create]
  · intro i j p q hp
    simp [Host.start] at hp
  · intro q hq
    simp [Host.start] at hq
  · intro endpoint hmem
    rw [Host.start, endpoints_create] at hmem
    exact Or.inl hmem
  · intro peer hmem hstate
    rw [hstart peer hmem] at hstate
    cases hstate

/-- Admission control: in every run, whatever an endpoint achieves was preceded
by its admission, and the callback never runs for a peer, twice at a time or
after a rejection. -/
theorem controlled_run (initialPeers : List UdpEndpoint) (past : List HostEvent)
    (e : HostEvent) : Controlled initialPeers past e := by
  have hg := guarded_run initialPeers past
  generalize hh : run Host.machine (Host.start initialPeers) past = h at hg
  have hreceive : ∀ {now sender datagram}, e = .receive now sender datagram →
      ActsFor h e sender → ∃ idx peer, h.tunnel.peer? sender = some (idx, peer) ∧
        ∀ message, messageOf datagram = some message →
          message.type.isControl = false → peer.state = .connected := by
    rintro now sender datagram rfl hacts
    have hte : h.tunnelEvent (.receive now sender datagram) =
      some (.receive now sender datagram) := rfl
    rw [ActsFor, (Host.machine_of_some hte).1, (Host.machine_of_some hte).2] at hacts
    exact exists_peer_of_acts hacts
  constructor
  · intro now sender datagram he hacts
    rw [hh] at hacts
    obtain ⟨idx, peer, hpeer, -⟩ := hreceive he hacts
    exact hg.admitted sender (hg.consistent.indexed.mem_endpoints hpeer).1
  · intro now sender datagram message he hmessage hdata hacts
    rw [hh] at hacts
    obtain ⟨idx, peer, hpeer, hconnected⟩ := hreceive he hacts
    have hget := (peer?_eq_some.mp hpeer).2
    rw [← (hg.consistent.indexed.mem_endpoints hpeer).2]
    exact hg.greeted peer (List.mem_of_getElem? hget) (hconnected message hmessage hdata)
  · intro dest bytes hsend
    rw [hh] at hsend
    cases hte : h.tunnelEvent e with
    | none =>
        rw [(Host.machine_of_none hte).2] at hsend
        cases hsend
    | some te =>
        rw [(Host.machine_of_some hte).2] at hsend
        rcases send_mem_emit hg.consistent.indexed hsend with hmem | hadds
        · exact (hg.admitted dest hmem).concat e
        · subst hh
          exact admitted_of_adds hte hadds
  · intro endpoint hmem
    rw [hh] at hmem ⊢
    cases hte : h.tunnelEvent e with
    | none =>
        rw [(Host.machine_of_none hte).2] at hmem
        cases hmem
    | some te =>
        rw [(Host.machine_of_some hte).2] at hmem
        have hask : ⟨endpoint, .undecided⟩ ∈ Host.opened (emit machine h.tunnel te) :=
          List.mem_filterMap.mpr ⟨_, hmem, rfl⟩
        rcases pending_next h.tunnel te with
          ⟨hopened, -⟩ | ⟨_, sender, _, -, hpeer, hpending, hrejected, hemit, -⟩ |
          ⟨_, -, hopened, -⟩ | ⟨_, -, hopened, -⟩
        · rw [hopened] at hask
          cases hask
        · rw [hemit, List.mem_singleton] at hmem
          obtain rfl := TunnelOutput.unknownPeer.inj hmem
          exact ⟨hg.consistent.indexed.peer?_eq_none.mp hpeer,
            fun q hq heq ↦ hg.consistent.accepted hpending hrejected hq heq⟩
        · rw [hopened] at hask
          cases hask
        · rw [hopened] at hask
          cases hask

end UdpTunnel

end LinkExtender
