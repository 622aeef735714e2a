import LinkExtender.State.Decisions

/-!
# Expiry of the queued requests

A timer thread takes its entry only from the front of the queue.  It leaves the entry
there for good if an earlier request is still queued at that time.
-/

namespace LinkExtender

/-- The thread has run its expiry section, and has found `alive` true. -/
def TimerThread.hasSwept : TimerThread → Bool
  | .sleeping _ | .returned => false
  | .swept _ | .rejected | .finished => true

namespace State

open EventMachine

/-- Every request whose timer thread has run its expiry section is out of the queue: it is
decided, or a thread has popped it and is about to decide it. -/
structure Complete (past : List StateEvent) : Prop where
  notQueued : ∀ (request : ℕ) (thread : TimerThread),
    (run machine initial past).timers[request]? = some thread → thread.hasSwept = true →
    request ∉ (run machine initial past).queued
  decided : ∀ (request : ℕ) (thread : TimerThread),
    (run machine initial past).timers[request]? = some thread → thread.hasSwept = true →
    request ∈ decisions (outputs machine initial past) ∨
      request ∈ (run machine initial past).held

/-- When a timer thread runs its expiry section, no earlier request is queued. -/
def InTurn (s : State) (e : StateEvent) : Prop :=
  ∀ (request : ℕ) (id : UInt64), e = .timer request →
    s.timers[request]? = some (.sleeping id) → s.pending.alive = true →
    ∀ r ∈ s.queued, request ≤ r

/-! ## One step -/

/-- No request is queued whose timer thread has run its expiry section. -/
def Reaped (s : State) : Prop :=
  ∀ (request : ℕ) (thread : TimerThread), s.timers[request]? = some thread →
    thread.hasSwept = true → request ∉ s.queued

theorem queued_cons {s : State} {entry : PendingApproval} {rest : List PendingApproval}
    (hqueue : s.pending.approvals = entry :: rest) :
    s.queued = entry.request :: rest.map PendingApproval.request := by
  rw [queued, hqueue, List.map_cons]

theorem Fifo.pairwise {s : State} (h : s.Fifo) : s.queued.Pairwise (· < ·) :=
  List.pairwise_lt_range.sublist h.suffix.sublist

/-- With a request, every later one so far is queued. -/
theorem Fifo.mem_queued {s : State} (h : s.Fifo) {r request : ℕ} (hr : r ∈ s.queued)
    (hle : r ≤ request) (hlt : request < s.timers.length) : request ∈ s.queued := by
  have hsuffix : s.queued <:+ List.range s.timers.length := h.suffix
  rw [List.suffix_iff_eq_drop] at hsuffix
  rw [hsuffix, List.range_eq_range', List.drop_range', List.mem_range'_1] at hr ⊢
  omega

/-- If no earlier request is queued, a thread's own is at the front or nowhere. -/
theorem Fifo.front_id {s : State} (h : s.Fifo) {request : ℕ} {id : UInt64}
    (hthread : s.timers[request]? = some (.sleeping id)) (hturn : ∀ r ∈ s.queued, request ≤ r)
    (hmem : request ∈ s.queued) :
    ∃ entry ∈ s.pending.approvals.head?, entry.id = id ∧ entry.request = request := by
  cases hqueue : s.pending.approvals with
  | nil => simp [queued, hqueue] at hmem
  | cons entry rest =>
      have hqueued := queued_cons hqueue
      have hle : request ≤ entry.request := hturn _ (by simp [hqueued])
      have hsorted := h.pairwise
      rw [hqueued] at hsorted hmem
      have hrequest : entry.request = request := by
        obtain heq | hmem := List.mem_cons.mp hmem
        · exact heq.symm
        · have hlt := List.rel_of_pairwise_cons hsorted hmem
          omega
      refine ⟨entry, rfl, ?_, hrequest⟩
      rw [h.sleeping_id request id hthread, h.entry_id entry (by simp [hqueue]), hrequest]

theorem reaped_set {s : State} (h : s.Reaped) {request : ℕ} {thread : TimerThread}
    {approvals : List PendingApproval} (hqueue : approvals <:+ s.pending.approvals)
    (hself : thread.hasSwept = true → request ∉ approvals.map PendingApproval.request) :
    ∀ (i : ℕ) (other : TimerThread), (s.timers.set request thread)[i]? = some other →
      other.hasSwept = true → i ∉ approvals.map PendingApproval.request := by
  intro i other hother hswept
  by_cases hi : request = i
  · subst hi
    obtain ⟨-, rfl⟩ : request < s.timers.length ∧ thread = other := by
      simpa [List.getElem?_set] using hother
    exact hself hswept
  · rw [List.getElem?_set_ne hi] at hother
    exact fun hmem ↦ h i other hother hswept ((hqueue.map _).subset hmem)

theorem reaped_next {s : State} (hfifo : s.Fifo) (h : s.Reaped) {e : StateEvent}
    (he : s.InTurn e) : (next machine s e).Reaped := by
  have heffect := effect s e
  generalize next machine s e = s', emit machine s e = out at heffect ⊢
  cases heffect with
  | idle => exact h
  | arrived ep =>
      intro request thread hthread hswept hmem
      simp only [unknownPeer, List.getElem?_append] at hthread
      simp only [queued, unknownPeer, List.map_append, List.mem_append, List.map_cons,
        List.map_nil, List.mem_singleton] at hmem
      split at hthread
      · rename_i hlt
        obtain hmem | hmem := hmem
        · exact h request thread hthread hswept hmem
        · omega
      · obtain ⟨-, rfl⟩ : request - s.timers.length = 0 ∧ .sleeping s.pending.nextId = thread := by
          simpa [List.getElem?_singleton] using hthread
        cases hswept
  | @expired request entry rest hthread halive hqueue =>
      apply reaped_set h ⟨[_], hqueue.symm⟩
      intro _ hmem
      have hqueued := queued_cons hqueue
      have hle : request ≤ entry.request :=
        he request _ rfl hthread halive _ (by simp [hqueued])
      have hlt : entry.request < request :=
        List.rel_of_pairwise_cons (hqueued ▸ hfifo.pairwise) hmem
      omega
  | @missed request id hthread halive hfront =>
      apply reaped_set h List.suffix_rfl
      intro _ hmem
      obtain ⟨entry, hhead, hid, -⟩ := hfifo.front_id hthread (he request id rfl hthread halive) hmem
      exact hfront entry hhead hid
  | late =>
      apply reaped_set h List.suffix_rfl
      intro hswept
      cases hswept
  | rejected hthread =>
      apply reaped_set h List.suffix_rfl
      exact fun _ ↦ h _ _ hthread rfl
  | prompted hthread =>
      apply reaped_set h List.suffix_rfl
      exact fun _ ↦ h _ _ hthread rfl
  | quit | decided | answered => exact h
  | popped _ _ hqueue =>
      intro request thread hthread hswept hmem
      apply h request thread hthread hswept
      rw [queued_cons hqueue]
      exact List.mem_cons_of_mem _ hmem
  | destroyed =>
      intro request thread _ _ hmem
      cases hmem

theorem inTurn_of_reaped_next {s : State} (hfifo : s.Fifo) {e : StateEvent}
    (h : (next machine s e).Reaped) : s.InTurn e := by
  rintro request id rfl hthread halive r hr
  by_contra hlt
  have hmem : request ∈ s.queued :=
    hfifo.mem_queued hr (by omega) (List.getElem?_eq_some_iff.mp hthread).1
  cases hqueue : s.pending.approvals with
  | nil => simp [queued, hqueue] at hmem
  | cons entry rest =>
      have hqueued := queued_cons hqueue
      have hsorted := hfifo.pairwise
      have hset (thread : TimerThread) : (s.timers.set request thread)[request]? = some thread :=
        List.getElem?_set_self (List.getElem?_eq_some_iff.mp hthread).1
      rw [hqueued] at hr hmem hsorted
      simp only [EventMachine.next, machine, timer, hthread, expire, halive, if_true, hqueue] at h
      by_cases hid : entry.id = id
      · -- The front goes, but it is an earlier request than the thread's own.
        simp only [if_pos hid] at h
        have hrest : request ∉ rest.map PendingApproval.request :=
          h request _ (hset _) rfl
        obtain rfl | hmem := List.mem_cons.mp hmem
        · obtain rfl | hr := List.mem_cons.mp hr
          · omega
          · have hlt' := List.rel_of_pairwise_cons hsorted hr
            omega
        · exact hrest hmem
      · simp only [if_neg hid] at h
        apply h request _ (hset _) rfl
        simpa [queued, hqueue] using hmem

/-! ## Runs -/

theorem complete_iff (past : List StateEvent) :
    Complete past ↔ (run machine initial past).Reaped := by
  constructor
  · exact fun h ↦ h.notQueued
  · intro h
    refine ⟨h, ?_⟩
    intro request thread hthread hswept
    have hlt := (List.getElem?_eq_some_iff.mp hthread).1
    have hcount := conserved_run past request
    rw [List.count_eq_zero.mpr (h request thread hthread hswept), if_pos hlt] at hcount
    rw [← List.count_pos_iff, ← List.count_pos_iff]
    omega

/-- Expiry is complete all along a run exactly when the timer threads run their expiry
sections in turn. -/
theorem forall_complete_iff (es : List StateEvent) :
    (∀ past, past <+: es → Complete past) ↔ Along machine InTurn initial es := by
  simp only [complete_iff]
  apply throughout_iff_along machine (I := fun s ↦ s.Fifo ∧ s.Reaped)
  · exact fun s h ↦ h.2
  · exact fun s e h he ↦ ⟨fifo_next h.1 e, reaped_next h.1 h.2 he⟩
  · exact fun s e h hnext ↦ inTurn_of_reaped_next h.1 hnext
  · refine ⟨fifo_initial, ?_⟩
    intro request thread hthread
    simp [initial] at hthread

/-- The second of two timer threads runs first, and its request stays in the queue. -/
theorem not_forall_complete : ¬ ∀ es, Complete es := by
  intro h
  apply (h [.unknownPeer ⟨.v4 0x0A000001, 20000⟩, .unknownPeer ⟨.v4 0x0A000002, 20000⟩,
    .timer 1]).notQueued 1 (.swept none) <;> decide

end State

end LinkExtender
