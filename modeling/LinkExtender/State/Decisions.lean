import LinkExtender.State.Steps

/-!
# Decisions on the queued requests

Every request is in the queue, with a thread that has popped it, or decided, and it is
in one of these places once.  `~State` waits for the input thread but not for the timer
threads, so what a timer thread has popped may be rejected after it.
-/

namespace LinkExtender

namespace TimerThread

/-- The request that the thread has popped and is about to reject. -/
def held : TimerThread → List ℕ
  | .swept (some entry) => [entry.request]
  | _ => []

end TimerThread

namespace InputThread

def held : InputThread → List ℕ
  | .resolving entry _ _ => [entry.request]
  | _ => []

end InputThread

namespace StateOutput

/-- The request that a call of `accept` or `reject` decides. -/
def decided : StateOutput → Option ℕ
  | .accept request => some request
  | .reject request => some request
  | .prompt _ => none

end StateOutput

namespace State

open EventMachine

def decisions (outs : List StateOutput) : List ℕ :=
  outs.filterMap StateOutput.decided

def queued (s : State) : List ℕ :=
  s.pending.approvals.map PendingApproval.request

def held (s : State) : List ℕ :=
  s.timers.flatMap TimerThread.held ++ s.input.held

/-- Nothing is decided once `~State` has returned. -/
def InTime (s : State) (e : StateEvent) : Prop :=
  s.pending.alive = false → decisions (emit machine s e) = []

instance (s : State) (e : StateEvent) : Decidable (s.InTime e) :=
  inferInstanceAs (Decidable (_ → _))

/-- No request is decided twice, and none once `~State` has returned. -/
structure DecidedProperly (es : List StateEvent) : Prop where
  once : (decisions (outputs machine initial es)).Nodup
  inTime : Along machine InTime initial es

/-- When `~State` runs, no timer thread is between its pop and its call of `reject`. -/
def NoneHeld (s : State) (e : StateEvent) : Prop :=
  e = .destroy → s.input = .returned → s.pending.alive = true →
    ∀ thread ∈ s.timers, thread.held = []

/-! ## Where a request is -/

@[simp] theorem decisions_append (xs ys : List StateOutput) :
    decisions (xs ++ ys) = decisions xs ++ decisions ys :=
  List.filterMap_append ..

theorem decisions_printNextPrompt (pending : SharedPending) :
    decisions (printNextPrompt pending) = [] := by
  cases h : pending.approvals <;> simp [decisions, printNextPrompt, StateOutput.decided, h]

theorem decisions_ite_printNextPrompt (b : Bool) (pending : SharedPending) :
    decisions (if b then printNextPrompt pending else []) = [] := by
  cases b
  · rfl
  · exact decisions_printNextPrompt pending

theorem decisions_drain (approvals : List PendingApproval) :
    decisions (approvals.map (fun entry ↦ .reject entry.request)) =
      approvals.map PendingApproval.request := by
  induction approvals with
  | nil => rfl
  | cons entry rest ih => simpa [decisions, StateOutput.decided] using ih

/-- A thread that is replaced gives up what it holds. -/
theorem count_held_set {threads : List TimerThread} {request : ℕ} {old : TimerThread}
    (h : threads[request]? = some old) (thread : TimerThread) (r : ℕ) :
    ((threads.set request thread).flatMap TimerThread.held).count r + old.held.count r =
      (threads.flatMap TimerThread.held).count r + thread.held.count r := by
  induction threads generalizing request with
  | nil => simp at h
  | cons first threads ih =>
      cases request with
      | zero =>
          obtain rfl : first = old := by simpa using h
          simp only [List.set_cons_zero, List.flatMap_cons, List.count_append]
          omega
      | succ request =>
          have htail := ih (by simpa using h)
          simp only [List.set_cons_succ, List.flatMap_cons, List.count_append]
          omega

/-- After the outputs `outs`, every request so far is in one place. -/
def Conserved (outs : List StateOutput) (s : State) : Prop :=
  ∀ r, (decisions outs).count r + s.queued.count r + s.held.count r =
    if r < s.timers.length then 1 else 0

theorem conserved_initial : initial.Conserved [] := by
  intro r
  simp [initial, decisions, queued, held, InputThread.held]

/-- A step without an arrival only moves requests from one place to another. -/
theorem Conserved.of_balance {outs out : List StateOutput} {s s' : State} (h : s.Conserved outs)
    (hlength : s'.timers.length = s.timers.length)
    (hbalance : ∀ r, (decisions out).count r + s'.queued.count r + s'.held.count r =
      s.queued.count r + s.held.count r) : s'.Conserved (outs ++ out) := by
  intro r
  have hr := h r
  have hmoved := hbalance r
  rw [decisions_append, List.count_append, hlength]
  omega

/-- For a timer thread, what it gives up and what it takes count. -/
theorem Conserved.of_set {outs out : List StateOutput} {s : State} (h : s.Conserved outs)
    {request : ℕ} {old thread : TimerThread} (hthread : s.timers[request]? = some old)
    {approvals : List PendingApproval}
    (hbalance : ∀ r, (decisions out).count r +
      (approvals.map PendingApproval.request).count r + thread.held.count r =
        s.queued.count r + old.held.count r) :
    Conserved (outs ++ out)
      { s with
        pending := { s.pending with approvals := approvals }
        timers := s.timers.set request thread } := by
  apply h.of_balance List.length_set
  intro r
  have hset := count_held_set hthread thread r
  have hmoved := hbalance r
  simp only [queued, held, List.count_append] at hmoved ⊢
  omega

theorem Conserved.arrived {outs : List StateOutput} {s : State} (h : s.Conserved outs)
    (ep : UdpEndpoint) : (s.unknownPeer ep).1.Conserved (outs ++ (s.unknownPeer ep).2) := by
  intro r
  have hr := h r
  have hprompt : decisions (s.unknownPeer ep).2 = [] := decisions_ite_printNextPrompt ..
  have hqueue : (s.unknownPeer ep).1.queued = s.queued ++ [s.timers.length] := by
    simp [queued, unknownPeer]
  have hheld : (s.unknownPeer ep).1.held = s.held := by
    simp [held, unknownPeer, TimerThread.held]
  have hlength : (s.unknownPeer ep).1.timers.length = s.timers.length + 1 := by
    simp [unknownPeer]
  rw [decisions_append, hprompt, hqueue, hheld, hlength, List.append_nil, List.count_append,
    List.count_singleton]
  simp only [beq_iff_eq]
  split_ifs at hr ⊢ <;> omega

theorem Conserved.next {outs : List StateOutput} {s : State} (h : s.Conserved outs)
    (e : StateEvent) : (next machine s e).Conserved (outs ++ emit machine s e) := by
  have heffect := effect s e
  generalize EventMachine.next machine s e = s', emit machine s e = out at heffect ⊢
  cases heffect with
  | idle => simpa using h
  | arrived ep => exact h.arrived ep
  | expired hthread _ hqueue =>
      apply h.of_set hthread
      intro r
      simp [queued, hqueue, decisions, TimerThread.held, List.count_cons]
  | missed hthread | late hthread =>
      apply h.of_set hthread
      intro r
      simp [queued, decisions, TimerThread.held]
  | rejected hthread =>
      apply h.of_set hthread
      intro r
      simp [queued, decisions, StateOutput.decided, TimerThread.held, Nat.add_comm]
  | prompted hthread =>
      apply h.of_set hthread
      intro r
      rw [decisions_ite_printNextPrompt]
      simp [queued, TimerThread.held]
  | quit hinput =>
      refine h.of_balance rfl fun r ↦ ?_
      simp [queued, held, hinput, InputThread.held, decisions]
  | popped hinput _ hqueue =>
      refine h.of_balance rfl fun r ↦ ?_
      simp only [queued, held, hinput, hqueue, InputThread.held, decisions, List.filterMap_nil,
        List.map_cons, List.count_append, List.count_cons, List.count_nil]
      omega
  | @decided entry accept _ hinput =>
      refine h.of_balance rfl fun r ↦ ?_
      have hdecided : decisions [if accept then .accept entry.request else .reject entry.request] =
          [entry.request] := by
        cases accept <;> rfl
      rw [hdecided]
      simp only [queued, held, hinput, InputThread.held, List.count_append, List.count_nil]
      omega
  | answered hinput =>
      refine h.of_balance rfl fun r ↦ ?_
      rw [decisions_ite_printNextPrompt]
      simp [queued, held, hinput, InputThread.held]
  | destroyed =>
      refine h.of_balance rfl fun r ↦ ?_
      rw [decisions_drain]
      simp [queued, held]

theorem conserved_run (es : List StateEvent) :
    (run machine initial es).Conserved (outputs machine initial es) := by
  apply history_induction machine initial
    (I := fun es s ↦ s.Conserved (outputs machine initial es))
  · exact conserved_initial
  · intro past e h
    rw [outputs_concat]
    exact h.next e

theorem nodup_decisions (es : List StateEvent) : (decisions (outputs machine initial es)).Nodup := by
  rw [List.nodup_iff_count_le_one]
  intro r
  have hr := conserved_run es r
  split_ifs at hr <;> omega

/-! ## After `~State` -/

/-- Once `~State` has run, no thread holds a request. -/
def Silent (s : State) : Prop :=
  s.pending.alive = false → s.input = .returned ∧ ∀ thread ∈ s.timers, thread.held = []

theorem silent_next {s : State} {e : StateEvent} (h : s.Silent) (he : s.NoneHeld e) :
    (next machine s e).Silent := by
  have heffect := effect s e
  generalize EventMachine.next machine s e = s', emit machine s e = out at heffect ⊢
  intro halive
  cases heffect with
  | idle => exact h halive
  | arrived ep =>
      obtain ⟨hinput, hthreads⟩ := h halive
      refine ⟨hinput, ?_⟩
      simpa [unknownPeer, TimerThread.held, or_imp, forall_and] using hthreads
  | expired _ halive' => exact absurd halive (by simp [halive'])
  | missed _ halive' => exact absurd halive (by simp [halive'])
  | late | rejected | prompted =>
      obtain ⟨hinput, hthreads⟩ := h halive
      refine ⟨hinput, ?_⟩
      intro thread hthread
      obtain hthread | rfl := List.mem_or_eq_of_mem_set hthread
      · exact hthreads thread hthread
      · rfl
  | quit hinput | popped hinput | decided hinput | answered hinput =>
      obtain ⟨hreturned, -⟩ := h halive
      simp [hinput] at hreturned
  | destroyed hinput halive' => exact ⟨hinput, he rfl hinput halive'⟩

theorem Silent.inTime {s : State} (h : s.Silent) (e : StateEvent) : s.InTime e := by
  intro halive
  have heffect := effect s e
  generalize EventMachine.next machine s e = s', emit machine s e = out at heffect ⊢
  obtain ⟨hinput, hthreads⟩ := h halive
  cases heffect with
  | idle | expired | missed | late | quit | popped => rfl
  | arrived ep => exact decisions_ite_printNextPrompt ..
  | prompted => exact decisions_ite_printNextPrompt ..
  | answered => exact decisions_ite_printNextPrompt ..
  | rejected hthread =>
      have hheld := hthreads _ (List.mem_of_getElem? hthread)
      simp [TimerThread.held] at hheld
  | decided hdecided => simp [hinput] at hdecided
  | destroyed _ halive' => simp [halive] at halive'

/-- A timer thread that holds an entry when `~State` has returned rejects it later. -/
theorem not_along_inTime {s : State} (halive : s.pending.alive = false) {i : ℕ}
    {entry : PendingApproval} (hthread : s.timers[i]? = some (.swept (some entry)))
    (es : List StateEvent) : ¬ Along machine InTime s (es ++ [.timer i]) := by
  have hreject (s : State) (halive : s.pending.alive = false)
      (hthread : s.timers[i]? = some (.swept (some entry))) : ¬ s.InTime (.timer i) := by
    intro h
    have hout : emit machine s (.timer i) = [.reject entry.request] := by
      simp [emit, machine, timer, hthread]
    simpa [hout, decisions, StateOutput.decided] using h halive
  induction es generalizing s with
  | nil => exact fun h ↦ hreject s halive hthread h.1
  | cons e es ih =>
      rintro ⟨he, hes⟩
      by_cases hi : e = .timer i
      · subst hi
        exact hreject s halive hthread he
      · exact ih (alive_next halive e) (timers_next hthread hi) hes

theorem along_noneHeld {s : State} {es : List StateEvent}
    (h : ∀ i, Along machine InTime s (es ++ [.timer i])) : Along machine NoneHeld s es := by
  induction es generalizing s with
  | nil => trivial
  | cons e es ih =>
      refine ⟨?_, ih (fun i ↦ (h i).2)⟩
      rintro rfl hinput halive thread hthread
      by_contra hheld
      obtain ⟨i, hi⟩ := List.mem_iff_getElem?.mp hthread
      obtain ⟨entry, rfl⟩ : ∃ entry, thread = .swept (some entry) := by
        cases thread with
        | swept entry =>
            cases entry with
            | none => exact absurd rfl hheld
            | some entry => exact ⟨entry, rfl⟩
        | sleeping | returned | rejected | finished => exact absurd rfl hheld
      have hthread' : (next machine s .destroy).timers[i]? = some (.swept (some entry)) :=
        timers_next hi (by simp)
      have halive' : (next machine s .destroy).pending.alive = false := by
        simp [EventMachine.next, machine, destroy, hinput, halive]
      exact not_along_inTime halive' hthread' es (h i).2

/-- Whatever follows a run, no request is decided twice and none after `~State`, exactly
when no timer thread holds one when `~State` runs. -/
theorem forall_decidedProperly_iff (es : List StateEvent) :
    (∀ rest, StateEvent.destroy ∉ rest → DecidedProperly (es ++ rest)) ↔
      Along machine NoneHeld initial es := by
  constructor
  · intro h
    apply along_noneHeld
    intro i
    exact (h [.timer i] (by simp)).inTime
  · intro h rest hrest
    refine ⟨nodup_decisions _, ?_⟩
    have hrest' : Along machine NoneHeld (run machine initial es) rest := by
      apply along_of_forall_mem
      rintro s e he rfl
      exact absurd he hrest
    have hsilent : initial.Silent := fun h ↦ absurd h (by decide)
    apply along_of_invariant machine (I := Silent) (C := NoneHeld) _ _ hsilent
    · exact (along_append ..).mpr ⟨h, hrest'⟩
    · exact fun _ _ ↦ silent_next
    · exact fun _ e h _ ↦ h.inTime e

/-- A timer thread pops its entry and is held up until `~State` has returned. -/
theorem not_forall_decidedProperly : ¬ ∀ es, DecidedProperly es := by
  intro h
  have hlate := (h [.unknownPeer ⟨.v4 0x0A000001, 20000⟩, .timer 0, .key 'q', .destroy,
    .timer 0]).inTime
  revert hlate
  decide

end State

end LinkExtender
