import LinkExtender.Extender
import LinkExtender.State.Decisions
import LinkExtender.UdpTunnel.Admission

/-!
# Who holds the pending endpoints

The program is a host of the tunnel in the sense of `UdpTunnel.Host`: every pair of
`acceptFn` and `rejectFn` is used at most once, and what it posts runs once.  So between
the call of the callback and the end of its task every pending endpoint is in one place,
and only there.
-/

namespace LinkExtender

open EventMachine UdpTunnel

namespace Extender

/-- The calls that no decision has been made for. -/
def undecided (x : Extender) : List ℕ := x.state.queued ++ x.state.held

/-- The tunnel's part of an output. -/
def tunnelOutput? : ExtenderOutput → Option TunnelOutput
  | .ofTunnel out => some out
  | .ofState _ => none

/-! ## The requests of the host -/

def statusOf (requests : List Request) (r : ℕ) : Option RequestStatus :=
  requests[r]?.map Request.status

theorem statusOf_concat (requests : List Request) (q : Request) (r : ℕ) :
    statusOf (requests ++ [q]) r =
      if r = requests.length then some q.status else statusOf requests r := by
  unfold statusOf
  rcases Nat.lt_trichotomy r requests.length with hlt | rfl | hgt
  · rw [List.getElem?_append_left hlt, if_neg hlt.ne]
  · simp
  · have hnone : requests[r]? = none := List.getElem?_eq_none hgt.le
    have hnone' : (requests ++ [q])[r]? = none := List.getElem?_eq_none (by simp; omega)
    rw [hnone, hnone', if_neg hgt.ne']

theorem statusOf_modify {requests : List Request} {r : ℕ} {q : Request} (hq : requests[r]? = some q)
    (f : Request → Request) (r' : ℕ) :
    statusOf (requests.modify r f) r' =
      if r' = r then some (f q).status else statusOf requests r' := by
  unfold statusOf
  rw [List.getElem?_modify]
  by_cases heq : r = r'
  · subst heq
    simp [hq]
  · simp [heq, Ne.symm heq]

theorem endpoints_modify {f : Request → Request} (hf : ∀ q, (f q).endpoint = q.endpoint)
    (requests : List Request) (r : ℕ) :
    (requests.modify r f).map Request.endpoint = requests.map Request.endpoint := by
  apply List.ext_getElem?
  intro i
  simp only [List.getElem?_map, List.getElem?_modify]
  cases requests[i]? with
  | none => rfl
  | some q => by_cases hi : r = i <;> simp [hi, hf]

/-- The requests are undecided that are listed as such, and posted that have a task. -/
structure Custody (undecided : List ℕ) (tasks : List PostedTask) (requests : List Request) :
    Prop where
  undecided : ∀ r, undecided.count r = if statusOf requests r = some .undecided then 1 else 0
  posted : ∀ task : PostedTask, tasks.count task =
    if statusOf requests task.request = some (.posted task.accepted) then 1 else 0

namespace Custody

variable {undecided : List ℕ} {tasks : List PostedTask} {requests : List Request}

theorem nil : Custody [] [] [] where
  undecided := fun _ ↦ rfl
  posted := fun _ ↦ rfl

theorem of_perm (h : Custody undecided tasks requests) {undecided' : List ℕ}
    (hperm : undecided.Perm undecided') : Custody undecided' tasks requests where
  undecided := fun r ↦ by rw [← hperm.count_eq, h.undecided]
  posted := h.posted

theorem statusOf_of_mem (h : Custody undecided tasks requests) {r : ℕ} (hr : r ∈ undecided) :
    statusOf requests r = some .undecided := by
  have hcount := h.undecided r
  have hpos := List.count_pos_iff.mpr hr
  by_contra hstatus
  rw [if_neg hstatus] at hcount
  omega

theorem statusOf_of_task (h : Custody undecided tasks requests) {task : PostedTask}
    (htask : task ∈ tasks) : statusOf requests task.request = some (.posted task.accepted) := by
  have hcount := h.posted task
  have hpos := List.count_pos_iff.mpr htask
  by_contra hstatus
  rw [if_neg hstatus] at hcount
  omega

theorem ask (h : Custody undecided tasks requests) (endpoint : UdpEndpoint) :
    Custody (undecided ++ [requests.length]) tasks (requests ++ [⟨endpoint, .undecided⟩]) := by
  have hnone : statusOf requests requests.length = none := by simp [statusOf]
  constructor
  · intro r
    have hr := h.undecided r
    rw [List.count_append, List.count_singleton, hr, statusOf_concat]
    by_cases heq : r = requests.length
    · subst heq
      simp [hnone]
    · simp [heq, Ne.symm heq]
  · intro task
    rw [h.posted task, statusOf_concat]
    by_cases heq : task.request = requests.length
    · simp [heq, hnone]
    · simp [heq]

/-- An undecided call is decided, and its decision posted. -/
theorem decide {r : ℕ} (h : Custody (r :: undecided) tasks requests) (accepted : Bool) :
    Custody undecided (tasks ++ [⟨r, accepted⟩])
      (requests.modify r (fun q ↦ q.decide accepted)) := by
  have hstatus := h.statusOf_of_mem List.mem_cons_self
  obtain ⟨q, hq, hundecided⟩ := Option.map_eq_some_iff.mp hstatus
  have hdecided : (q.decide accepted).status = .posted accepted := by
    simp [Request.decide, hundecided]
  constructor
  · intro r'
    have hr := h.undecided r'
    rw [statusOf_modify hq, hdecided]
    by_cases heq : r' = r
    · subst heq
      rw [List.count_cons_self, hstatus] at hr
      simp at hr
      simpa using hr
    · rw [List.count_cons_of_ne (Ne.symm heq)] at hr
      simpa [heq] using hr
  · intro task
    have htask := h.posted task
    rw [List.count_append, List.count_singleton, htask, statusOf_modify hq, hdecided]
    obtain ⟨request, verdict⟩ := task
    by_cases heq : request = r
    · subst heq
      simp [hstatus]
    · simp [heq, Ne.symm heq]

/-- A posted task is run. -/
theorem execute (h : Custody undecided tasks requests) {position : ℕ} {task : PostedTask}
    (htask : tasks[position]? = some task) :
    Custody undecided (tasks.eraseIdx position) (requests.modify task.request Request.execute) := by
  have hstatus := h.statusOf_of_task (List.mem_of_getElem? htask)
  obtain ⟨q, hq, hposted⟩ := Option.map_eq_some_iff.mp hstatus
  have hexecuted : q.execute.status = .executed task.accepted := by
    simp [Request.execute, hposted]
  obtain ⟨hlt, hget⟩ := List.getElem?_eq_some_iff.mp htask
  have hperm : (task :: tasks.eraseIdx position).Perm tasks :=
    hget ▸ List.getElem_cons_eraseIdx_perm hlt
  constructor
  · intro r
    rw [h.undecided r, statusOf_modify hq, hexecuted]
    by_cases heq : r = task.request
    · simp [heq, hstatus]
    · simp [heq]
  · intro other
    have hother := h.posted other
    rw [← hperm.count_eq, List.count_cons] at hother
    rw [statusOf_modify hq, hexecuted]
    by_cases heq : other.request = task.request
    · rw [heq, hstatus] at hother
      have hsame : task = other ↔ task.accepted = other.accepted := by
        obtain ⟨request, accepted⟩ := task
        obtain ⟨request', accepted'⟩ := other
        obtain rfl : request' = request := heq
        simp
      by_cases haccepted : task.accepted = other.accepted
      · simp [heq, hsame.mpr haccepted] at hother ⊢
        omega
      · simp [heq, hsame, haccepted] at hother ⊢
        omega
    · have hne : ¬ task = other := fun h ↦ heq (congrArg _ h.symm)
      simpa [heq, hne] using hother

end Custody

/-! ## The program as a host -/

theorem opened_eq (out : List TunnelOutput) :
    Host.opened out = (out.filterMap TunnelOutput.asks?).map (fun ep ↦ ⟨ep, .undecided⟩) := by
  rw [Host.opened, List.map_filterMap]
  congr 1
  funext o
  cases o <;> rfl

theorem map_request_tasks (out : List StateOutput) :
    (out.filterMap StateOutput.task?).map PostedTask.request = State.decisions out := by
  induction out with
  | nil => rfl
  | cons o out ih => cases o <;> simpa [State.decisions, StateOutput.task?, StateOutput.decided]

/-- The host's requests are the calls of the callback so far. -/
structure Refines (x : Extender) (h : Host) : Prop where
  tunnel : h.tunnel = x.tunnel
  captured : h.requests.map Request.endpoint = x.captured
  threads : x.state.timers.length = x.captured.length
  conserved : ∃ outs, x.state.Conserved outs
  custody : Custody x.undecided x.tasks h.requests

variable {x : Extender} {h : Host}

theorem refines_start (initialPeers : List UdpEndpoint) :
    Refines (start initialPeers) (Host.start initialPeers) where
  tunnel := rfl
  captured := rfl
  threads := rfl
  conserved := ⟨[], State.conserved_initial⟩
  custody := .nil

/-- The calls that a step of the threads decides were undecided before it. -/
theorem perm_undecided {s : State} {outs : List StateOutput} (hs : s.Conserved outs)
    {e : StateEvent} (hcall : ∀ ep, e ≠ .unknownPeer ep) :
    (s.queued ++ s.held).Perm (State.decisions (emit State.machine s e) ++
      ((next State.machine s e).queued ++ (next State.machine s e).held)) ∧
    (next State.machine s e).timers.length = s.timers.length := by
  have hlength : (next State.machine s e).timers.length = s.timers.length := by
    have heffect := State.effect s e
    generalize next State.machine s e = s', emit State.machine s e = out at heffect ⊢
    cases heffect with
    | arrived ep => exact absurd rfl (hcall ep)
    | expired | missed | late | rejected | prompted => exact List.length_set
    | idle | quit | popped | decided | answered | destroyed => rfl
  refine ⟨List.perm_iff_count.mpr fun r ↦ ?_, hlength⟩
  have hbefore := hs r
  have hafter := hs.next e r
  rw [State.decisions_append, hlength] at hafter
  simp only [List.count_append] at hbefore hafter ⊢
  omega

/-- The decisions of one step, posted one after the other. -/
theorem Custody.decideAll {rest : List ℕ} {tasks : List PostedTask} (new : List PostedTask)
    {h : Host} (hc : Custody (new.map PostedTask.request ++ rest) tasks h.requests) :
    let h' := run Host.machine h (new.map (fun task ↦ .decide task.request task.accepted))
    Custody rest (tasks ++ new) h'.requests ∧ h'.tunnel = h.tunnel ∧
      h'.requests.map Request.endpoint = h.requests.map Request.endpoint ∧
      outputs Host.machine h (new.map (fun task ↦ .decide task.request task.accepted)) = [] := by
  induction new generalizing tasks h with
  | nil => exact ⟨by simpa using hc, rfl, rfl, rfl⟩
  | cons task new ih =>
      obtain ⟨hcustody, htunnel, hendpoints, hout⟩ :=
        @ih (tasks ++ [task]) (next Host.machine h (.decide task.request task.accepted))
          (hc.decide task.accepted)
      refine ⟨by simpa using hcustody, htunnel, hendpoints.trans ?_, hout⟩
      exact endpoints_modify (fun q ↦ q.endpoint_decide task.accepted) _ _

theorem Refines.state (hr : Refines x h) {e : StateEvent} (hcall : ∀ ep, e ≠ .unknownPeer ep) :
    ∃ hes, Refines (x.stateStep e).1 (run Host.machine h hes) ∧
      (x.stateStep e).2.filterMap tunnelOutput? = outputs Host.machine h hes := by
  obtain ⟨outs, hconserved⟩ := hr.conserved
  obtain ⟨hperm, hlength⟩ := perm_undecided hconserved hcall
  rw [← map_request_tasks] at hperm
  obtain ⟨hcustody, htunnel, hendpoints, hout⟩ :=
    Custody.decideAll _ (hr.custody.of_perm hperm)
  refine ⟨_, ⟨htunnel.trans hr.tunnel, hendpoints.trans hr.captured, hlength.trans hr.threads,
    ⟨_, hconserved.next e⟩, hcustody⟩, ?_⟩
  rw [hout, stateStep, List.filterMap_map, List.filterMap_eq_nil_iff]
  exact fun _ _ ↦ rfl

/-- The callback runs once for each of a list of endpoints. -/
theorem Refines.calls (hr : Refines x h) (asked : List UdpEndpoint) :
    Refines
      { x with
        state := run State.machine x.state (asked.map .unknownPeer)
        captured := x.captured ++ asked }
      ⟨h.tunnel, h.requests ++ asked.map (fun ep ↦ ⟨ep, .undecided⟩)⟩ := by
  induction asked generalizing x h with
  | nil => simpa using hr
  | cons ep asked ih =>
      have hlength : h.requests.length = x.state.timers.length := by
        rw [hr.threads, ← hr.captured, List.length_map]
      obtain ⟨outs, hconserved⟩ := hr.conserved
      have hperm : (x.undecided ++ [h.requests.length]).Perm
          ((x.state.unknownPeer ep).1.queued ++ (x.state.unknownPeer ep).1.held) := by
        have hqueue : (x.state.unknownPeer ep).1.queued =
            x.state.queued ++ [x.state.timers.length] := by
          simp [State.queued, State.unknownPeer]
        have hheld : (x.state.unknownPeer ep).1.held = x.state.held := by
          simp [State.held, State.unknownPeer, TimerThread.held]
        rw [hqueue, hheld, hlength, undecided, List.append_assoc, List.append_assoc]
        exact List.perm_append_comm.append_left _
      have hfirst : Refines { x with
          state := (x.state.unknownPeer ep).1
          captured := x.captured ++ [ep] } ⟨h.tunnel, h.requests ++ [⟨ep, .undecided⟩]⟩ := by
        refine ⟨hr.tunnel, ?_, ?_, ⟨_, hconserved.arrived ep⟩, (hr.custody.ask ep).of_perm hperm⟩
        · simp [hr.captured]
        · simp [State.unknownPeer, hr.threads]
      have hnext : EventMachine.next State.machine x.state (.unknownPeer ep) =
          (x.state.unknownPeer ep).1 := rfl
      simpa [hnext] using ih hfirst

/-- A step of the tunnel that the host takes by the event `he`. -/
theorem Refines.tunnelStep (hr : Refines x h) {te : TunnelEvent} {he : HostEvent}
    (hte : h.tunnelEvent he = some te)
    (hendpoints : (h.settled he).map Request.endpoint = h.requests.map Request.endpoint)
    {tasks : List PostedTask} (hcustody : Custody x.undecided tasks (h.settled he)) :
    Refines (Extender.tunnelStep { x with tasks := tasks } te).1 (next Host.machine h he) ∧
      (Extender.tunnelStep { x with tasks := tasks } te).2.filterMap tunnelOutput? =
        emit Host.machine h he := by
  obtain ⟨hnext, hemit⟩ := Host.machine_of_some hte
  rw [hnext, hemit, opened_eq, hr.tunnel]
  have hsettled : Refines { x with tasks := tasks, tunnel := next UdpTunnel.machine x.tunnel te }
      ⟨next UdpTunnel.machine x.tunnel te, h.settled he⟩ :=
    ⟨rfl, hendpoints.trans hr.captured, hr.threads, hr.conserved, hcustody⟩
  refine ⟨hsettled.calls _, ?_⟩
  simp only [Extender.tunnelStep, List.filterMap_append, List.filterMap_map]
  have htunnel : tunnelOutput? ∘ ExtenderOutput.ofTunnel = some := rfl
  have hstate : tunnelOutput? ∘ ExtenderOutput.ofState = fun _ ↦ none := rfl
  rw [htunnel, hstate, List.filterMap_some, List.filterMap_none, List.append_nil]

theorem Refines.next (hr : Refines x h) (e : ExtenderEvent) :
    ∃ hes, Refines (next machine x e) (run Host.machine h hes) ∧
      (emit machine x e).filterMap tunnelOutput? = outputs Host.machine h hes := by
  have heffect := effect x e
  generalize EventMachine.next machine x e = x', emit machine x e = out at heffect ⊢
  cases heffect with
  | state se hcall => exact hr.state hcall
  | idle => exact ⟨[], hr, rfl⟩
  | @task position task captured htask hcaptured =>
      have hstatus := hr.custody.statusOf_of_task (List.mem_of_getElem? htask)
      obtain ⟨q, hq, hposted⟩ := Option.map_eq_some_iff.mp hstatus
      have hendpoint : q.endpoint = captured := by
        rw [← hr.captured, List.getElem?_map, hq] at hcaptured
        exact Option.some.inj hcaptured
      have hte : h.tunnelEvent (.execute task.request) = some (task.event captured) := by
        obtain ⟨endpoint, status⟩ := q
        obtain rfl : status = .posted task.accepted := hposted
        obtain rfl : endpoint = captured := hendpoint
        cases haccepted : task.accepted <;>
          simp [Host.tunnelEvent, Host.posted, hq, haccepted, PostedTask.event]
      have hendpoints : (h.settled (.execute task.request)).map Request.endpoint =
          h.requests.map Request.endpoint := by
        refine endpoints_modify (fun q ↦ ?_) _ _
        unfold Request.execute
        split <;> rfl
      obtain ⟨hnext, hout⟩ := hr.tunnelStep hte hendpoints (hr.custody.execute htask)
      exact ⟨[.execute task.request], hnext, by simpa using hout⟩
  | tunnel te hneither =>
      have hplain (he : HostEvent) (hte : h.tunnelEvent he = some te)
          (hsettled : h.settled he = h.requests) :
          ∃ hes, Refines (x.tunnelStep te).1 (run Host.machine h hes) ∧
            (x.tunnelStep te).2.filterMap tunnelOutput? = outputs Host.machine h hes := by
        obtain ⟨hnext, hout⟩ := @hr.tunnelStep _ _ te he hte (by rw [hsettled]) x.tasks
          (by rw [hsettled]; exact hr.custody)
        exact ⟨[he], hnext, by simpa using hout⟩
      cases te with
      | receive now sender datagram => exact hplain (.receive now sender datagram) rfl rfl
      | runMaintenance now => exact hplain (.runMaintenance now) rfl rfl
      | addPeer endpoint => exact hplain (.addPeer endpoint) rfl rfl
      | removePeer endpoint => exact hplain (.removePeer endpoint) rfl rfl
      | forward now type fromNode message toNode =>
          exact hplain (.forward now type fromNode message toNode) rfl rfl
      | acceptPeer endpoint => exact absurd rfl (hneither endpoint).1
      | rejectPeer endpoint => exact absurd rfl (hneither endpoint).2

theorem exists_refines_run (initialPeers : List UdpEndpoint) (es : List ExtenderEvent) :
    ∃ hes, Refines (run machine (start initialPeers) es)
      (run Host.machine (Host.start initialPeers) hes) := by
  obtain ⟨hes, hr, -⟩ := exists_run_simulation (m := machine) (a := Host.machine) (R := Refines)
    (fun _ _ e hr ↦ hr.next e) (refines_start initialPeers) es
  exact ⟨hes, hr⟩

/-- Every run of the program is a run of a host around the same tunnel, with the same
datagrams, local forwards and calls of the callback in the same order. -/
theorem exists_host_run (initialPeers : List UdpEndpoint) (es : List ExtenderEvent) :
    ∃ hes, Refines (run machine (start initialPeers) es)
        (run Host.machine (Host.start initialPeers) hes) ∧
      (outputs machine (start initialPeers) es).filterMap tunnelOutput? =
        outputs Host.machine (Host.start initialPeers) hes :=
  exists_run_simulation (fun _ _ e hr ↦ hr.next e) (refines_start initialPeers) es

/-! ## The pending endpoints -/

theorem count_map_request (tasks : List PostedTask) (r : ℕ) :
    (tasks.map PostedTask.request).count r =
      tasks.count ⟨r, true⟩ + tasks.count ⟨r, false⟩ := by
  induction tasks with
  | nil => rfl
  | cons task tasks ih =>
      obtain ⟨request, accepted⟩ := task
      rw [List.map_cons, List.count_cons, List.count_cons, List.count_cons, ih]
      cases accepted <;> simp <;> omega

theorem Custody.nodup {undecided : List ℕ} {tasks : List PostedTask} {requests : List Request}
    (hc : Custody undecided tasks requests) :
    (undecided ++ tasks.map PostedTask.request).Nodup := by
  rw [List.nodup_iff_count_le_one]
  intro r
  rw [List.count_append, count_map_request, hc.undecided, hc.posted, hc.posted]
  -- the three statuses exclude each other
  cases statusOf requests r with
  | none => simp
  | some status =>
      cases status with
      | undecided | executed => simp
      | posted accepted => cases accepted <;> simp

end Extender

end LinkExtender
