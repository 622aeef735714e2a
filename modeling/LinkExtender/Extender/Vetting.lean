import LinkExtender.Extender.Custody
import LinkExtender.Library.Trace

/-!
# Who lets a peer in

Every decision on an unknown peer goes back to the moment at which its entry left the
queue: an `a` or `d` of the operator while it was at the front, the end of its time or
the destructor.  So the program talks to no endpoint that was not configured, added or
accepted there.
-/

namespace LinkExtender

open EventMachine UdpTunnel

namespace Extender

/-- The operator presses the key while an entry of the endpoint is at the front. -/
def Pressed (c : Char) (endpoint : UdpEndpoint) (x : Extender) (e : ExtenderEvent) : Prop :=
  e = .key c ∧ x.state.input = .reading ∧
    ∃ entry ∈ x.state.pending.approvals.head?, entry.ep = endpoint

/-- A timer thread finds the entry that it was started for at the front. -/
def Expired (endpoint : UdpEndpoint) (x : Extender) (e : ExtenderEvent) : Prop :=
  ∃ request, ∃ entry ∈ x.state.pending.approvals.head?, e = .timer request ∧
    x.state.timers[request]? = some (.sleeping entry.id) ∧ entry.ep = endpoint

/-- `~State` finds the entry in the queue. -/
def Drained (endpoint : UdpEndpoint) (x : Extender) (e : ExtenderEvent) : Prop :=
  e = .destroy ∧ ∃ entry ∈ x.state.pending.approvals, entry.ep = endpoint

/-- What was decided on the endpoint in one of the steps so far. -/
def Verdict (steps : List (Extender × ExtenderEvent)) (accepted : Bool) (endpoint : UdpEndpoint) :
    Prop :=
  ∃ p ∈ steps,
    if accepted then Pressed 'a' endpoint p.1 p.2
    else Pressed 'd' endpoint p.1 p.2 ∨ Expired endpoint p.1 p.2 ∨ Drained endpoint p.1 p.2

/-- The endpoint was in the initial list, passed to `addPeer` or accepted. -/
def Vouched (initialPeers : List UdpEndpoint) (steps : List (Extender × ExtenderEvent))
    (endpoint : UdpEndpoint) : Prop :=
  endpoint ∈ initialPeers ∨ (∃ p ∈ steps, p.2 = .addPeer endpoint) ∨ Verdict steps true endpoint

/-! ## Later steps -/

section Steps

variable {steps : List (Extender × ExtenderEvent)} {endpoint : UdpEndpoint} {accepted : Bool}
  {initialPeers : List UdpEndpoint}

theorem Verdict.append (h : Verdict steps accepted endpoint)
    (more : List (Extender × ExtenderEvent)) : Verdict (steps ++ more) accepted endpoint := by
  obtain ⟨p, hp, hverdict⟩ := h
  exact ⟨p, List.mem_append_left _ hp, hverdict⟩

theorem Vouched.append (h : Vouched initialPeers steps endpoint)
    (more : List (Extender × ExtenderEvent)) : Vouched initialPeers (steps ++ more) endpoint := by
  obtain hinitial | ⟨p, hp, hadded⟩ | hverdict := h
  · exact Or.inl hinitial
  · exact Or.inr (Or.inl ⟨p, List.mem_append_left _ hp, hadded⟩)
  · exact Or.inr (Or.inr (hverdict.append more))

end Steps

/-! ## The entries -/

/-- Every entry shows the endpoint that its `accept` and `reject` are for, and the
threads that have popped one act on a verdict. -/
structure Shown (captured : List UdpEndpoint) (steps : List (Extender × ExtenderEvent))
    (s : State) : Prop where
  threads : s.timers.length = captured.length
  queued : ∀ entry ∈ s.pending.approvals, captured[entry.request]? = some entry.ep
  resolving : ∀ entry accept hasNext, s.input = .resolving entry accept hasNext →
    captured[entry.request]? = some entry.ep ∧ Verdict steps accept entry.ep
  swept : ∀ entry, .swept (some entry) ∈ s.timers →
    captured[entry.request]? = some entry.ep ∧ Verdict steps false entry.ep

namespace Shown

variable {captured : List UdpEndpoint} {steps : List (Extender × ExtenderEvent)} {s : State}

theorem append (h : Shown captured steps s) (more : List (Extender × ExtenderEvent)) :
    Shown captured (steps ++ more) s where
  threads := h.threads
  queued := h.queued
  resolving := by
    intro entry accept hasNext hinput
    obtain ⟨hcaptured, hverdict⟩ := h.resolving entry accept hasNext hinput
    exact ⟨hcaptured, hverdict.append more⟩
  swept := by
    intro entry hmem
    obtain ⟨hcaptured, hverdict⟩ := h.swept entry hmem
    exact ⟨hcaptured, hverdict.append more⟩

theorem unknownPeer (h : Shown captured steps s) (ep : UdpEndpoint) :
    Shown (captured ++ [ep]) steps (s.unknownPeer ep).1 := by
  have hold {r : ℕ} {ep' : UdpEndpoint} (hr : captured[r]? = some ep') :
      (captured ++ [ep])[r]? = some ep' := by
    obtain ⟨hlt, -⟩ := List.getElem?_eq_some_iff.mp hr
    rw [List.getElem?_append_left hlt, hr]
  constructor
  · simp [State.unknownPeer, h.threads]
  · intro entry hentry
    simp only [State.unknownPeer, List.mem_append, List.mem_singleton] at hentry
    obtain hentry | rfl := hentry
    · exact hold (h.queued entry hentry)
    · simp [h.threads]
  · intro entry accept hasNext hinput
    obtain ⟨hcaptured, hverdict⟩ := h.resolving entry accept hasNext hinput
    exact ⟨hold hcaptured, hverdict⟩
  · intro entry hmem
    simp only [State.unknownPeer, List.mem_append, List.mem_singleton, reduceCtorEq, or_false]
      at hmem
    obtain ⟨hcaptured, hverdict⟩ := h.swept entry hmem
    exact ⟨hold hcaptured, hverdict⟩

theorem calls (h : Shown captured steps s) (asked : List UdpEndpoint) :
    Shown (captured ++ asked) steps (run State.machine s (asked.map .unknownPeer)) := by
  induction asked generalizing captured s with
  | nil => simpa using h
  | cons ep asked ih =>
      have hrest := ih (h.unknownPeer ep)
      rw [List.append_assoc] at hrest
      exact hrest

/-- Where the queue has lost entries and a thread has moved on. -/
theorem of_set (h : Shown captured steps s) {approvals : List PendingApproval}
    (hqueue : approvals ⊆ s.pending.approvals) {request : ℕ} {thread : TimerThread}
    (hthread : ∀ entry, thread = .swept (some entry) →
      captured[entry.request]? = some entry.ep ∧ Verdict steps false entry.ep) :
    Shown captured steps { s with
      pending := { s.pending with approvals := approvals }
      timers := s.timers.set request thread } where
  threads := List.length_set.trans h.threads
  queued := fun entry hentry ↦ h.queued entry (hqueue hentry)
  resolving := h.resolving
  swept := by
    intro entry hmem
    obtain hmem | heq := List.mem_or_eq_of_mem_set hmem
    · exact h.swept entry hmem
    · exact hthread entry heq.symm

end Shown

theorem task?_printNextPrompt (b : Bool) (pending : SharedPending) :
    (if b then State.printNextPrompt pending else []).filterMap StateOutput.task? = [] := by
  cases b with
  | false => rfl
  | true =>
      cases hqueue : pending.approvals <;> simp [State.printNextPrompt, hqueue, StateOutput.task?]

/-- What a step of the threads posts goes back to a verdict. -/
theorem Shown.stateStep {x : Extender} {steps : List (Extender × ExtenderEvent)}
    (h : Shown x.captured steps x.state) {e : ExtenderEvent} {se : StateEvent}
    (hcall : ∀ ep, se ≠ .unknownPeer ep) (hkey : ∀ c, se = .key c → e = .key c)
    (htimer : ∀ request, se = .timer request → e = .timer request)
    (hdestroy : se = .destroy → e = .destroy) :
    Shown x.captured (steps ++ [(x, e)]) (next State.machine x.state se) ∧
      ∀ task ∈ (emit State.machine x.state se).filterMap StateOutput.task?,
        ∃ ep, x.captured[task.request]? = some ep ∧
          Verdict (steps ++ [(x, e)]) task.accepted ep := by
  have hlast : (x, e) ∈ steps ++ [(x, e)] := List.mem_append_right _ (List.mem_singleton_self _)
  have hlater := h.append [(x, e)]
  have heffect := State.effect x.state se
  generalize next State.machine x.state se = s', emit State.machine x.state se = out
    at heffect ⊢
  cases heffect with
  | idle => exact ⟨hlater, by simp⟩
  | arrived ep => exact absurd rfl (hcall ep)
  | @expired request entry rest hthread _ hqueue =>
      refine ⟨hlater.of_set (by simp [hqueue]) ?_, by simp⟩
      intro entry' heq
      obtain rfl : entry = entry' := Option.some.inj (TimerThread.swept.inj heq)
      refine ⟨h.queued entry (by simp [hqueue]), _, hlast, ?_⟩
      exact Or.inr (Or.inl ⟨request, entry, by simp [hqueue], htimer _ rfl, hthread, rfl⟩)
  | missed | late => exact ⟨hlater.of_set (List.Subset.refl _) (by simp), by simp⟩
  | @rejected request entry hthread =>
      refine ⟨hlater.of_set (List.Subset.refl _) (by simp), ?_⟩
      simp only [List.filterMap_cons, List.filterMap_nil, StateOutput.task?, List.mem_singleton,
        forall_eq]
      exact ⟨entry.ep, hlater.swept entry (List.mem_of_getElem? hthread)⟩
  | prompted =>
      refine ⟨hlater.of_set (List.Subset.refl _) (by simp), ?_⟩
      rw [task?_printNextPrompt]
      simp
  | quit => exact ⟨⟨hlater.threads, hlater.queued, by simp, hlater.swept⟩, by simp⟩
  | @popped c accept entry rest hinput hpressed hqueue =>
      refine ⟨⟨hlater.threads, ?_, ?_, hlater.swept⟩, by simp⟩
      · intro other hother
        exact h.queued other (by simp [hqueue, hother])
      · intro entry' accept' hasNext heq
        obtain ⟨rfl, rfl, -⟩ := InputThread.resolving.inj heq
        refine ⟨h.queued entry (by simp [hqueue]), _, hlast, ?_⟩
        have hfront : ∃ front ∈ x.state.pending.approvals.head?, front.ep = entry.ep :=
          ⟨entry, by simp [hqueue], rfl⟩
        have he : e = .key (if accept then 'a' else 'd') := hkey _ (by rw [hpressed])
        cases accept with
        | true => exact ⟨he, hinput, hfront⟩
        | false => exact Or.inl ⟨he, hinput, hfront⟩
  | @decided entry accept hasNext hinput =>
      obtain ⟨hcaptured, hverdict⟩ := hlater.resolving entry accept hasNext hinput
      refine ⟨⟨hlater.threads, hlater.queued, by simp, hlater.swept⟩, ?_⟩
      cases accept with
      | true | false =>
          simp only [Bool.false_eq_true, if_true, if_false, List.filterMap_cons,
            List.filterMap_nil, StateOutput.task?, List.mem_singleton, forall_eq]
          exact ⟨entry.ep, hcaptured, hverdict⟩
  | answered =>
      refine ⟨⟨hlater.threads, hlater.queued, by simp, hlater.swept⟩, ?_⟩
      rw [task?_printNextPrompt]
      simp
  | destroyed =>
      refine ⟨⟨hlater.threads, by simp, hlater.resolving, hlater.swept⟩, ?_⟩
      intro task htask
      obtain ⟨out, hout, htask⟩ := List.mem_filterMap.mp htask
      obtain ⟨entry, hentry, rfl⟩ := List.mem_map.mp hout
      obtain rfl : ⟨entry.request, false⟩ = task := Option.some.inj htask
      refine ⟨entry.ep, h.queued entry hentry, _, hlast, ?_⟩
      exact Or.inr (Or.inr ⟨hdestroy rfl, entry, hentry, rfl⟩)

/-! ## Every run -/

structure Vetting (initialPeers : List UdpEndpoint) (steps : List (Extender × ExtenderEvent))
    (x : Extender) : Prop where
  shown : Shown x.captured steps x.state
  tasks : ∀ task ∈ x.tasks, ∃ ep, x.captured[task.request]? = some ep ∧
    Verdict steps task.accepted ep
  peers : ∀ endpoint ∈ x.tunnel.endpoints, Vouched initialPeers steps endpoint
  rejected : ∀ endpoint ∈ x.tunnel.mRejectedPeers, Verdict steps false endpoint

namespace Vetting

variable {initialPeers : List UdpEndpoint} {steps : List (Extender × ExtenderEvent)}
  {x : Extender}

theorem mRejectedPeers_create (initialPeers : List UdpEndpoint) :
    (create initialPeers).mRejectedPeers = ∅ := by
  have hfold (es : List UdpEndpoint) (t : UdpTunnel) :
      (es.foldl UdpTunnel.pushPeer t).mRejectedPeers = t.mRejectedPeers := by
    induction es generalizing t with
    | nil => rfl
    | cons e es ih => exact ih (t.pushPeer e)
  exact hfold initialPeers _

theorem start (initialPeers : List UdpEndpoint) : Vetting initialPeers [] (start initialPeers) where
  shown := ⟨rfl, by simp [Extender.start, State.initial],
    by simp [Extender.start, State.initial], by simp [Extender.start, State.initial]⟩
  tasks := by simp [Extender.start]
  peers := by
    intro endpoint hmem
    rw [Extender.start, endpoints_create] at hmem
    exact Or.inl hmem
  rejected := by simp [Extender.start, mRejectedPeers_create]

/-- A step of the tunnel by an event whose own endpoint has been vouched for, or denied. -/
theorem tunnelStep (h : Vetting initialPeers steps x) {te : TunnelEvent} {e : ExtenderEvent}
    (hadds : ∀ ep, te = .addPeer ep ∨ te = .acceptPeer ep →
      Vouched initialPeers (steps ++ [(x, e)]) ep)
    (hrejects : ∀ ep, te = .rejectPeer ep → Verdict (steps ++ [(x, e)]) false ep)
    {tasks : List PostedTask} (htasks : tasks ⊆ x.tasks) :
    Vetting initialPeers (steps ++ [(x, e)])
      (Extender.tunnelStep { x with tasks := tasks } te).1 where
  shown := (h.shown.append _).calls _
  tasks := by
    intro task htask
    obtain ⟨ep, hcaptured, hverdict⟩ := h.tasks task (htasks htask)
    obtain ⟨hlt, -⟩ := List.getElem?_eq_some_iff.mp hcaptured
    refine ⟨ep, ?_, hverdict.append _⟩
    exact (List.getElem?_append_left hlt).trans hcaptured
  peers := by
    intro endpoint hmem
    change endpoint ∈ (next UdpTunnel.machine x.tunnel te).endpoints at hmem
    rcases endpoints_next x.tunnel te with heq | ⟨added, hadd, -, heq⟩ | ⟨_, idx, -, -, heq⟩
    · rw [heq] at hmem
      exact (h.peers endpoint hmem).append _
    · rw [heq, List.mem_append, List.mem_singleton] at hmem
      obtain hmem | rfl := hmem
      · exact (h.peers endpoint hmem).append _
      · exact hadds endpoint hadd
    · rw [heq] at hmem
      exact (h.peers endpoint (List.mem_of_mem_eraseIdx hmem)).append _
  rejected := by
    intro endpoint hmem
    change endpoint ∈ (next UdpTunnel.machine x.tunnel te).mRejectedPeers at hmem
    rcases pending_next x.tunnel te with ⟨-, -, heq, -⟩ | ⟨_, _, _, -, -, -, -, -, -, heq⟩ |
      ⟨_, -, -, -, heq⟩ | ⟨denied, hdenied, -, -, heq⟩
    · exact (h.rejected endpoint (heq ▸ hmem)).append _
    · exact (h.rejected endpoint (heq ▸ hmem)).append _
    · exact (h.rejected endpoint (heq ▸ hmem)).append _
    · rw [heq, Finset.mem_insert] at hmem
      obtain rfl | hmem := hmem
      · exact hrejects endpoint hdenied
      · exact (h.rejected endpoint hmem).append _

theorem stateStep (h : Vetting initialPeers steps x) {e : ExtenderEvent} {se : StateEvent}
    (hcall : ∀ ep, se ≠ .unknownPeer ep) (hkey : ∀ c, se = .key c → e = .key c)
    (htimer : ∀ request, se = .timer request → e = .timer request)
    (hdestroy : se = .destroy → e = .destroy) :
    Vetting initialPeers (steps ++ [(x, e)]) (x.stateStep se).1 := by
  obtain ⟨hshown, hposted⟩ := h.shown.stateStep hcall hkey htimer hdestroy
  refine ⟨hshown, ?_, fun ep hmem ↦ (h.peers ep hmem).append _,
    fun ep hmem ↦ (h.rejected ep hmem).append _⟩
  intro task htask
  obtain htask | htask := List.mem_append.mp htask
  · obtain ⟨ep, hcaptured, hverdict⟩ := h.tasks task htask
    exact ⟨ep, hcaptured, hverdict.append _⟩
  · exact hposted task htask

/-- A task is run for the endpoint that its verdict is on. -/
theorem event_of_task (h : Vetting initialPeers steps x) {task : PostedTask}
    (htask : task ∈ x.tasks) {captured : UdpEndpoint}
    (hcaptured : x.captured[task.request]? = some captured) :
    (∀ ep, task.event captured = .addPeer ep ∨ task.event captured = .acceptPeer ep →
      Verdict steps true ep) ∧
    ∀ ep, task.event captured = .rejectPeer ep → Verdict steps false ep := by
  obtain ⟨ep, hep, hverdict⟩ := h.tasks task htask
  obtain rfl : ep = captured := Option.some.inj (hep.symm.trans hcaptured)
  cases haccepted : task.accepted with
  | true =>
      have hevent : task.event ep = .acceptPeer ep := by simp [PostedTask.event, haccepted]
      rw [haccepted] at hverdict
      rw [hevent]
      simpa using hverdict
  | false =>
      have hevent : task.event ep = .rejectPeer ep := by simp [PostedTask.event, haccepted]
      rw [haccepted] at hverdict
      rw [hevent]
      simpa using hverdict

theorem next (h : Vetting initialPeers steps x) (e : ExtenderEvent) :
    Vetting initialPeers (steps ++ [(x, e)]) (next machine x e) := by
  have heffect := effect x e
  generalize EventMachine.next machine x e = x', emit machine x e = out at heffect ⊢
  cases heffect with
  | tunnel te hneither hadds =>
      refine @tunnelStep _ _ _ h te e ?_ (fun ep hreject ↦ absurd hreject (hneither ep).2)
        x.tasks (List.Subset.refl _)
      rintro ep (hadd | haccept)
      · exact Or.inr (Or.inl ⟨_, List.mem_append_right _ (List.mem_singleton_self _),
          hadds ep hadd⟩)
      · exact absurd haccept (hneither ep).1
  | state se hcall hkey htimer hdestroy => exact h.stateStep hcall hkey htimer hdestroy
  | idle =>
      refine ⟨h.shown.append _, ?_, fun ep hmem ↦ (h.peers ep hmem).append _,
        fun ep hmem ↦ (h.rejected ep hmem).append _⟩
      intro task htask
      obtain ⟨ep, hcaptured, hverdict⟩ := h.tasks task htask
      exact ⟨ep, hcaptured, hverdict.append _⟩
  | task htask hcaptured =>
      obtain ⟨hadds, hrejects⟩ := h.event_of_task (List.mem_of_getElem? htask) hcaptured
      exact h.tunnelStep (fun ep hadd ↦ Or.inr (Or.inr ((hadds ep hadd).append _)))
        (fun ep hreject ↦ (hrejects ep hreject).append _) List.eraseIdx_subset

theorem run (initialPeers : List UdpEndpoint) (past : List ExtenderEvent) :
    Vetting initialPeers (trace machine (Extender.start initialPeers) past)
      (run machine (Extender.start initialPeers) past) := by
  apply history_induction machine (Extender.start initialPeers)
    (I := fun past x ↦ Vetting initialPeers (trace machine (Extender.start initialPeers) past) x)
  · exact Vetting.start initialPeers
  · intro past e h
    rw [trace_concat]
    exact h.next e

end Vetting

/-- What vetting promises of a run and the event after it. -/
structure Vetted (initialPeers : List UdpEndpoint) (past : List ExtenderEvent)
    (e : ExtenderEvent) : Prop where
  peers : ∀ endpoint ∈ (run machine (start initialPeers) past).tunnel.endpoints,
    Vouched initialPeers (trace machine (start initialPeers) past) endpoint
  rejected : ∀ endpoint ∈ (run machine (start initialPeers) past).tunnel.mRejectedPeers,
    Verdict (trace machine (start initialPeers) past) false endpoint
  /-- The endpoint of a prompt is the one that the operator decides on. -/
  shown : ∀ entry ∈ (run machine (start initialPeers) past).state.pending.approvals,
    (run machine (start initialPeers) past).captured[entry.request]? = some entry.ep
  sends : ∀ dest bytes,
    .ofTunnel (.send dest bytes) ∈ emit machine (run machine (start initialPeers) past) e →
    Vouched initialPeers (trace machine (start initialPeers) (past ++ [e])) dest
  forwards : ∀ now sender datagram message, e = .receive now sender datagram →
    .ofTunnel (.forwardLocally message) ∈
      emit machine (run machine (start initialPeers) past) e →
    Vouched initialPeers (trace machine (start initialPeers) past) sender

theorem mem_emit_tunnel {x : Extender} {te : TunnelEvent} {out : TunnelOutput}
    (h : .ofTunnel out ∈ (x.tunnelStep te).2) : out ∈ emit UdpTunnel.machine x.tunnel te := by
  simpa [tunnelStep] using h

theorem indexed_run (initialPeers : List UdpEndpoint) (past : List ExtenderEvent) :
    (run machine (start initialPeers) past).tunnel.Indexed := by
  obtain ⟨hes, hr⟩ := exists_refines_run initialPeers past
  rw [← hr.tunnel]
  exact (guarded_run initialPeers hes).consistent.indexed

/-- In every run, datagrams go to and messages come in from endpoints only that were
configured, added or accepted while the operator was shown them. -/
theorem vetted_run (initialPeers : List UdpEndpoint) (past : List ExtenderEvent)
    (e : ExtenderEvent) : Vetted initialPeers past e := by
  have h := Vetting.run initialPeers past
  have hindexed := indexed_run initialPeers past
  refine ⟨h.peers, h.rejected, h.shown.queued, ?_, ?_⟩
  · intro dest bytes hsend
    rw [trace_concat]
    generalize run machine (start initialPeers) past = x at h hindexed hsend ⊢
    have hsent {te : TunnelEvent} {tasks : List PostedTask}
        (hmem : .ofTunnel (.send dest bytes) ∈
          (tunnelStep { x with tasks := tasks } te).2)
        (hadds : te = .addPeer dest ∨ te = .acceptPeer dest →
          Vouched initialPeers (trace machine (start initialPeers) past ++ [(x, e)]) dest) :
        Vouched initialPeers (trace machine (start initialPeers) past ++ [(x, e)]) dest := by
      obtain hpeer | hadd := send_mem_emit hindexed (mem_emit_tunnel hmem)
      · exact (h.peers dest hpeer).append _
      · exact hadds hadd
    have heffect := effect x e
    generalize next machine x e = x', emit machine x e = out at heffect hsend
    cases heffect with
    | tunnel te hneither hadds =>
        refine @hsent te x.tasks hsend ?_
        rintro (hadd | haccept)
        · exact Or.inr (Or.inl ⟨_, List.mem_append_right _ (List.mem_singleton_self _),
            hadds dest hadd⟩)
        · exact absurd haccept (hneither dest).1
    | state => simp [stateStep] at hsend
    | idle => cases hsend
    | task htask hcaptured =>
        refine hsent hsend fun hadd ↦ Or.inr (Or.inr ?_)
        exact ((h.event_of_task (List.mem_of_getElem? htask) hcaptured).1 dest hadd).append _
  · rintro now sender datagram message rfl hforward
    obtain ⟨idx, peer, hpeer, -⟩ :=
      exists_peer_of_acts (Or.inl ⟨message, mem_emit_tunnel hforward⟩)
    exact h.peers sender (hindexed.mem_endpoints hpeer).1

end Extender

end LinkExtender
