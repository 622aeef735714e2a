import LinkExtender.State

/-!
# Steps of the approval queue

The cases of every section, once, and what holds of the queue in every state: it is a
last part of the calls made so far, in their order.
-/

namespace LinkExtender

namespace State

open EventMachine

/-! ## What a step can do -/

/-- The steps, with the new state and the outputs of each. -/
inductive Effect (s : State) : StateEvent → State → List StateOutput → Prop
  | idle {e : StateEvent} (he : ∀ ep, e ≠ .unknownPeer ep) : Effect s e s []
  | arrived (ep : UdpEndpoint) : Effect s (.unknownPeer ep) (s.unknownPeer ep).1 (s.unknownPeer ep).2
  | expired {request : ℕ} {entry : PendingApproval} {rest : List PendingApproval}
      (hthread : s.timers[request]? = some (.sleeping entry.id)) (halive : s.pending.alive = true)
      (hqueue : s.pending.approvals = entry :: rest) :
      Effect s (.timer request)
        { s with
          pending := { s.pending with approvals := rest }
          timers := s.timers.set request (.swept (some entry)) } []
  | missed {request : ℕ} {id : UInt64} (hthread : s.timers[request]? = some (.sleeping id))
      (halive : s.pending.alive = true)
      (hfront : ∀ entry ∈ s.pending.approvals.head?, entry.id ≠ id) :
      Effect s (.timer request) { s with timers := s.timers.set request (.swept none) } []
  | late {request : ℕ} {id : UInt64} (hthread : s.timers[request]? = some (.sleeping id))
      (halive : s.pending.alive = false) :
      Effect s (.timer request) { s with timers := s.timers.set request .returned } []
  | rejected {request : ℕ} {entry : PendingApproval}
      (hthread : s.timers[request]? = some (.swept (some entry))) :
      Effect s (.timer request) { s with timers := s.timers.set request .rejected }
        [.reject entry.request]
  | prompted {request : ℕ} (hthread : s.timers[request]? = some .rejected) :
      Effect s (.timer request) { s with timers := s.timers.set request .finished }
        (if s.pending.alive then printNextPrompt s.pending else [])
  | quit (hinput : s.input = .reading) : Effect s (.key 'q') { s with input := .returned } []
  | popped {c : Char} {accept : Bool} {entry : PendingApproval} {rest : List PendingApproval}
      (hinput : s.input = .reading) (hkey : c = if accept then 'a' else 'd')
      (hqueue : s.pending.approvals = entry :: rest) :
      Effect s (.key c)
        { s with
          pending := { s.pending with approvals := rest }
          input := .resolving entry accept (!rest.isEmpty) } []
  | decided {entry : PendingApproval} {accept hasNext : Bool}
      (hinput : s.input = .resolving entry accept hasNext) :
      Effect s .input { s with input := .resolved hasNext }
        [if accept then .accept entry.request else .reject entry.request]
  | answered {hasNext : Bool} (hinput : s.input = .resolved hasNext) :
      Effect s .input { s with input := .reading }
        (if hasNext then printNextPrompt s.pending else [])
  | destroyed (hinput : s.input = .returned) (halive : s.pending.alive = true) :
      Effect s .destroy { s with pending := { s.pending with approvals := [], alive := false } }
        (s.pending.approvals.map (fun entry ↦ .reject entry.request))

theorem effect_timer (s : State) (request : ℕ) :
    Effect s (.timer request) (s.timer request).1 (s.timer request).2 := by
  unfold timer expire
  cases hthread : s.timers[request]? with
  | none => exact .idle (by simp)
  | some thread =>
      cases thread with
      | sleeping id =>
          by_cases halive : s.pending.alive = true
          · simp only [if_pos halive]
            cases hqueue : s.pending.approvals with
            | nil => exact .missed hthread halive (by simp [hqueue])
            | cons entry rest =>
                by_cases hid : entry.id = id
                · subst hid
                  simp only [if_true]
                  exact .expired hthread halive hqueue
                · simp only [if_neg hid]
                  exact .missed hthread halive (by simpa [hqueue] using hid)
          · simp only [if_neg halive]
            exact .late hthread (Bool.not_eq_true _ ▸ halive)
      | swept entry =>
          cases entry with
          | none => exact .idle (by simp)
          | some entry => exact .rejected hthread
      | rejected => exact .prompted hthread
      | returned | finished => exact .idle (by simp)

theorem effect_key (s : State) (c : Char) : Effect s (.key c) (s.key c) [] := by
  unfold key
  cases hinput : s.input with
  | resolving | resolved | returned => exact .idle (by simp)
  | reading =>
      have hpop (accept : Bool) (hkey : c = if accept then 'a' else 'd') :
          Effect s (.key c) (s.resolvePendingApproval accept) [] := by
        unfold resolvePendingApproval
        cases hqueue : s.pending.approvals with
        | nil => exact .idle (by simp)
        | cons entry rest => exact .popped hinput hkey hqueue
      by_cases hq : c = 'q'
      · subst hq
        exact .quit hinput
      · by_cases ha : c = 'a'
        · simp only [if_neg hq, if_pos ha]
          exact hpop true ha
        · by_cases hd : c = 'd'
          · simp only [if_neg hq, if_neg ha, if_pos hd]
            exact hpop false hd
          · simp only [if_neg hq, if_neg ha, if_neg hd]
            exact .idle (by simp)

theorem effect (s : State) (e : StateEvent) : Effect s e (next machine s e) (emit machine s e) := by
  cases e with
  | unknownPeer ep => exact .arrived ep
  | timer request => exact effect_timer s request
  | key c => exact effect_key s c
  | input =>
      simp only [next, emit, machine, inputStep]
      cases hinput : s.input with
      | resolving entry accept hasNext => exact .decided hinput
      | resolved hasNext => exact .answered hinput
      | reading | returned => exact .idle (by simp)
  | destroy =>
      simp only [next, emit, machine, destroy]
      split
      · rename_i h
        exact .destroyed h.1 h.2
      · exact .idle (by simp)

theorem alive_next {s : State} (h : s.pending.alive = false) (e : StateEvent) :
    (next machine s e).pending.alive = false := by
  have heffect := effect s e
  generalize next machine s e = s', emit machine s e = out at heffect ⊢
  cases heffect with
  | destroyed => rfl
  | _ => exact h

/-- Only its own steps move a timer thread. -/
theorem timers_next {s : State} {i : ℕ} {thread : TimerThread} (h : s.timers[i]? = some thread)
    {e : StateEvent} (he : e ≠ .timer i) : (next machine s e).timers[i]? = some thread := by
  have hset (request : ℕ) (hrequest : StateEvent.timer request ≠ .timer i) (other : TimerThread) :
      (s.timers.set request other)[i]? = some thread := by
    rw [List.getElem?_set_ne (fun heq ↦ hrequest (congrArg _ heq)), h]
  have heffect := effect s e
  generalize next machine s e = s', emit machine s e = out at heffect ⊢
  cases heffect with
  | arrived ep =>
      obtain ⟨hi, -⟩ := List.getElem?_eq_some_iff.mp h
      rw [← h]
      exact List.getElem?_append_left hi
  | expired | missed | late | rejected | prompted => exact hset _ he _
  | idle | quit | popped | decided | answered | destroyed => exact h

/-! ## The queue -/

/-- The queue is a last part of the calls so far, and every id is the number of its call,
in the width that ids have. -/
structure Fifo (s : State) : Prop where
  suffix : s.pending.approvals.map PendingApproval.request <:+ List.range s.timers.length
  entry_id : ∀ entry ∈ s.pending.approvals, entry.id = UInt64.ofNat entry.request
  nextId : s.pending.nextId = UInt64.ofNat s.timers.length
  sleeping_id : ∀ request id, s.timers[request]? = some (.sleeping id) →
    id = UInt64.ofNat request

theorem fifo_initial : initial.Fifo where
  suffix := List.suffix_rfl
  entry_id := by simp [initial]
  nextId := rfl
  sleeping_id := by simp [initial]

/-- A queue that a front part was taken from, in a state with as many threads, of which
none has fallen asleep again. -/
theorem Fifo.of_suffix {s s' : State} (h : s.Fifo)
    (hqueue : s'.pending.approvals <:+ s.pending.approvals)
    (hnextId : s'.pending.nextId = s.pending.nextId)
    (hlength : s'.timers.length = s.timers.length)
    (hsleeping : ∀ (request : ℕ) id, s'.timers[request]? = some (TimerThread.sleeping id) →
      s.timers[request]? = some (TimerThread.sleeping id)) : s'.Fifo where
  suffix := hlength ▸ (hqueue.map _).trans h.suffix
  entry_id := fun entry hentry ↦ h.entry_id entry (hqueue.subset hentry)
  nextId := by rw [hnextId, hlength, h.nextId]
  sleeping_id := fun request id hthread ↦ h.sleeping_id request id (hsleeping request id hthread)

theorem sleeping_of_set {threads : List TimerThread} {request i : ℕ} {thread : TimerThread}
    {id : UInt64} (hawake : ∀ id, thread ≠ .sleeping id)
    (h : (threads.set request thread)[i]? = some (.sleeping id)) :
    threads[i]? = some (.sleeping id) := by
  rw [List.getElem?_set] at h
  split at h
  · split at h
    · exact absurd (Option.some.inj h) (hawake id)
    · cases h
  · exact h

/-- The same where a thread has moved on. -/
theorem Fifo.of_set {s : State} (h : s.Fifo) {approvals : List PendingApproval}
    (hqueue : approvals <:+ s.pending.approvals) {request : ℕ} {thread : TimerThread}
    (hawake : ∀ id, thread ≠ .sleeping id) :
    Fifo { s with
      pending := { s.pending with approvals := approvals }
      timers := s.timers.set request thread } := by
  apply h.of_suffix hqueue
  · rfl
  · exact List.length_set
  · exact fun _ _ ↦ sleeping_of_set hawake

theorem fifo_next {s : State} (h : s.Fifo) (e : StateEvent) : (next machine s e).Fifo := by
  have heffect := effect s e
  generalize next machine s e = s', emit machine s e = out at heffect ⊢
  cases heffect with
  | idle => exact h
  | arrived ep =>
      have hid : s.pending.nextId = UInt64.ofNat s.timers.length := h.nextId
      constructor
      · obtain ⟨front, hfront⟩ := h.suffix
        refine ⟨front, ?_⟩
        simp only [unknownPeer, List.map_append, List.length_append, List.length_singleton,
          List.range_succ, ← hfront, List.append_assoc]
        rfl
      · intro entry hentry
        simp only [unknownPeer, List.mem_append, List.mem_singleton] at hentry
        obtain hentry | rfl := hentry
        · exact h.entry_id entry hentry
        · exact hid
      · simp only [unknownPeer, List.length_append, List.length_singleton, hid]
        exact (UInt64.ofNat_add _ _).symm
      · intro request id hthread
        simp only [unknownPeer, List.getElem?_append] at hthread
        split at hthread
        · exact h.sleeping_id request id hthread
        · obtain ⟨hle, rfl⟩ : request - s.timers.length = 0 ∧ s.pending.nextId = id := by
            simpa [List.getElem?_singleton] using hthread
          rw [hid]
          congr 1
          omega
  | expired _ _ hqueue => exact h.of_set ⟨[_], hqueue.symm⟩ (by simp)
  | missed | late | rejected | prompted => exact h.of_set List.suffix_rfl (by simp)
  | popped _ _ hqueue => exact h.of_suffix ⟨[_], hqueue.symm⟩ rfl rfl (fun _ _ ↦ id)
  | quit | decided | answered => exact h.of_suffix List.suffix_rfl rfl rfl (fun _ _ ↦ id)
  | destroyed => exact h.of_suffix List.nil_suffix rfl rfl (fun _ _ ↦ id)

theorem fifo_run (es : List StateEvent) : (run machine initial es).Fifo :=
  run_invariant machine (I := Fifo) (fun _ e h ↦ fifo_next h e) fifo_initial es

end State

end LinkExtender
