import LinkExtender.State.Expiry
import LinkExtender.Library.Trace

/-!
# Prompts and key presses

What the screen shows when a key press decides a request.  A timer thread that takes an
entry prints the prompt for the next one in a later section, and a key press in between
decides an entry that has not been shown.
-/

namespace LinkExtender

/-- The entry that a prompt is about. -/
def StateOutput.prompted : StateOutput → Option PendingApproval
  | .prompt entry => some entry
  | _ => none

/-- The endpoint that the tunnel reports. -/
def StateEvent.reported : StateEvent → Option UdpEndpoint
  | .unknownPeer ep => some ep
  | _ => none

/-- The prompt for the next entry is up to the input thread. -/
def InputThread.owesPrompt : InputThread → Bool
  | .resolving _ _ hasNext => hasNext
  | .resolved hasNext => hasNext
  | _ => false

namespace State

open EventMachine History

def prompts (outs : List StateOutput) : List PendingApproval :=
  outs.filterMap StateOutput.prompted

def arrivals (past : List StateEvent) : List UdpEndpoint :=
  past.filterMap StateEvent.reported

/-- The entry of the most recent prompt. -/
def shown (past : List StateEvent) : Option PendingApproval :=
  (prompts (outputs machine initial past)).getLast?

/-- The entry that `resolvePendingApproval` pops in this step. -/
def resolves (s : State) (e : StateEvent) : Option PendingApproval :=
  match s.input, (next machine s e).input with
  | .reading, .resolving entry _ _ => some entry
  | _, _ => none

/-- The most recent prompt names the endpoint of the entry that is popped. -/
def Announced (past : List StateEvent) (e : StateEvent) : Prop :=
  ∀ entry ∈ resolves (run machine initial past) e,
    (shown past).map PendingApproval.ep = some entry.ep

/-- A timer thread takes the front of the queue, and there is an entry behind it. -/
def Uncovers (s : State) (e : StateEvent) : Prop :=
  (∃ request, e = .timer request) ∧
    (next machine s e).pending.approvals ≠ s.pending.approvals ∧
    (next machine s e).pending.approvals ≠ []

/-- Since a timer thread took an entry from before another, no prompt has been printed. -/
def Owed : List StateEvent → Prop :=
  Since (fun past e ↦ Uncovers (run machine initial past) e)
    (fun past e ↦ prompts (emit machine (run machine initial past) e) = [])

/-- A key press that decides a request does so when no prompt is owed. -/
def Settled (past : List StateEvent) (e : StateEvent) : Prop :=
  resolves (run machine initial past) e ≠ none → ¬ Owed past

/-! ## What is printed -/

theorem prompts_ite_printNextPrompt (b : Bool) (pending : SharedPending) :
    prompts (if b then printNextPrompt pending else []) = [] ∨
      ∃ entry rest, pending.approvals = entry :: rest ∧
        prompts (if b then printNextPrompt pending else []) = [entry] := by
  cases b with
  | false => exact Or.inl rfl
  | true =>
      cases hqueue : pending.approvals with
      | nil => simp [prompts, printNextPrompt, hqueue]
      | cons entry rest =>
          exact Or.inr ⟨entry, rest, rfl, by
            simp [prompts, printNextPrompt, StateOutput.prompted, hqueue]⟩

theorem prompts_drain (approvals : List PendingApproval) :
    prompts (approvals.map (fun entry ↦ .reject entry.request)) = [] := by
  simp [prompts, StateOutput.prompted]

/-- A step prints the prompt for the front of the queue, or none. -/
theorem prompts_emit (s : State) (e : StateEvent) :
    prompts (emit machine s e) = [] ∨
      ∃ entry rest, (next machine s e).pending.approvals = entry :: rest ∧
        prompts (emit machine s e) = [entry] := by
  have heffect := effect s e
  generalize next machine s e = s', emit machine s e = out at heffect ⊢
  cases heffect with
  | idle | expired | missed | late | rejected | quit | popped => exact Or.inl rfl
  | arrived ep => exact prompts_ite_printNextPrompt ..
  | prompted => exact prompts_ite_printNextPrompt ..
  | answered => exact prompts_ite_printNextPrompt ..
  | @decided _ accept => cases accept <;> exact Or.inl rfl
  | destroyed => exact Or.inl (prompts_drain _)

theorem shown_concat (past : List StateEvent) (e : StateEvent) :
    shown (past ++ [e]) =
      (prompts (emit machine (run machine initial past) e)).getLast?.or (shown past) := by
  rw [shown, outputs_concat, prompts, List.filterMap_append, List.getLast?_append]
  rfl

/-! ## One step -/

theorem length_next (s : State) (e : StateEvent) :
    (next machine s e).timers.length = s.timers.length + e.reported.toList.length := by
  have heffect := effect s e
  generalize next machine s e = s', emit machine s e = out at heffect ⊢
  cases heffect with
  | arrived ep => simp [unknownPeer, StateEvent.reported]
  | expired | missed | late | rejected | prompted => exact List.length_set
  | quit | popped | decided | answered | destroyed => rfl
  | idle he =>
      cases e with
      | unknownPeer ep => exact absurd rfl (he ep)
      | timer | key | input | destroy => rfl

theorem approvals_next {s : State} {e : StateEvent} {entry : PendingApproval}
    (hentry : entry ∈ (next machine s e).pending.approvals) :
    entry ∈ s.pending.approvals ∨
      e.reported = some entry.ep ∧ entry.request = s.timers.length := by
  have heffect := effect s e
  generalize next machine s e = s', emit machine s e = out at heffect hentry
  cases heffect with
  | arrived ep =>
      obtain hentry | hentry := List.mem_append.mp hentry
      · exact Or.inl hentry
      · obtain rfl := List.mem_singleton.mp hentry
        exact Or.inr ⟨rfl, rfl⟩
  | expired _ _ hqueue | popped _ _ hqueue =>
      rw [hqueue]
      exact Or.inl (List.mem_cons_of_mem _ hentry)
  | idle | missed | late | rejected | prompted | quit | decided | answered => exact Or.inl hentry
  | destroyed => cases hentry

theorem queued_next {s : State} {e : StateEvent} {r : ℕ} (hr : r ∈ (next machine s e).queued) :
    r ∈ s.queued ∨ r = s.timers.length := by
  obtain ⟨entry, hentry, rfl⟩ := List.mem_map.mp hr
  obtain hentry | ⟨-, hrequest⟩ := approvals_next hentry
  · exact Or.inl (List.mem_map_of_mem hentry)
  · exact Or.inr hrequest

theorem Uncovers.prompts_eq_nil {s : State} {e : StateEvent} (h : s.Uncovers e) :
    prompts (emit machine s e) = [] := by
  obtain ⟨⟨request, rfl⟩, hqueue, -⟩ := h
  have heffect := effect s (.timer request)
  generalize next machine s (.timer request) = s', emit machine s (.timer request) = out
    at heffect hqueue ⊢
  cases heffect with
  | idle | expired | missed | late | rejected => rfl
  | prompted => exact absurd rfl hqueue

theorem Uncovers.lt {s : State} {e : StateEvent} (h : s.Uncovers e) (hfifo : s.Fifo) {r : ℕ}
    (hr : r ∈ (next machine s e).queued) : ∃ front ∈ s.queued, front < r := by
  obtain ⟨⟨request, rfl⟩, hqueue, -⟩ := h
  have heffect := effect s (.timer request)
  generalize next machine s (.timer request) = s', emit machine s (.timer request) = out
    at heffect hqueue hr
  cases heffect with
  | idle | missed | late | rejected | prompted => exact absurd rfl hqueue
  | @expired _ entry _ _ _ hfront =>
      have hqueued := queued_cons hfront
      refine ⟨entry.request, by simp [hqueued], ?_⟩
      exact List.rel_of_pairwise_cons (hqueued ▸ hfifo.pairwise) hr

/-- Without a prompt, and if none is owed, the front of the queue stays where it is. -/
theorem head_next {s : State} {e : StateEvent} (hquiet : prompts (emit machine s e) = [])
    (huncovers : ¬ s.Uncovers e) (howes : (next machine s e).input.owesPrompt = false)
    (hnonempty : (next machine s e).pending.approvals ≠ []) :
    s.input.owesPrompt = false ∧ s.pending.approvals ≠ [] ∧
      (next machine s e).pending.approvals.head? = s.pending.approvals.head? := by
  rw [Uncovers] at huncovers
  have heffect := effect s e
  generalize next machine s e = s', emit machine s e = out
    at heffect hquiet huncovers howes hnonempty ⊢
  cases heffect with
  | idle | missed | late | rejected | prompted => exact ⟨howes, hnonempty, rfl⟩
  | arrived ep =>
      by_cases hqueue : s.pending.approvals = []
      · simp [unknownPeer, hqueue, prompts, printNextPrompt, StateOutput.prompted] at hquiet
      · exact ⟨howes, hqueue, List.head?_append_of_ne_nil _ hqueue⟩
  | expired _ _ hqueue =>
      exact absurd ⟨⟨_, rfl⟩, by simp [hqueue], hnonempty⟩ huncovers
  | quit hinput => exact ⟨by simp [hinput, InputThread.owesPrompt], hnonempty, rfl⟩
  | @popped _ _ _ rest =>
      have hempty : rest = [] := by simpa [InputThread.owesPrompt] using howes
      exact absurd hempty hnonempty
  | decided hinput => exact ⟨by simpa [hinput, InputThread.owesPrompt] using howes, hnonempty, rfl⟩
  | @answered hasNext hinput =>
      obtain ⟨entry, rest, hqueue⟩ : ∃ entry rest, s.pending.approvals = entry :: rest :=
        List.exists_cons_of_ne_nil hnonempty
      have hnext : hasNext = false := by
        cases hasNext with
        | false => rfl
        | true => simp [hqueue, prompts, printNextPrompt, StateOutput.prompted] at hquiet
      exact ⟨by simp [hinput, InputThread.owesPrompt, hnext], hnonempty, rfl⟩
  | destroyed => exact absurd rfl hnonempty

/-! ## Runs -/

section Runs

variable {past : List StateEvent} {e : StateEvent}

/-- How the most recent prompt stands to the queue. -/
structure Screen (past : List StateEvent) : Prop where
  recorded : ∀ entry ∈ shown past, entry.request < (run machine initial past).timers.length
  behind : ∀ entry ∈ shown past, ∀ r ∈ (run machine initial past).queued, entry.request ≤ r
  passed : Owed past → ∀ entry ∈ shown past, ∀ r ∈ (run machine initial past).queued,
    entry.request < r
  current : ¬ Owed past → (run machine initial past).input.owesPrompt = false →
    (run machine initial past).pending.approvals ≠ [] →
    shown past = (run machine initial past).pending.approvals.head?

theorem screen_nil : Screen [] where
  recorded := by simp [shown, prompts]
  behind := by simp [shown, prompts]
  passed := fun h ↦ absurd h (not_since_nil _ _)
  current := fun _ _ h ↦ absurd rfl h

theorem owed_concat : Owed (past ++ [e]) ↔ Uncovers (run machine initial past) e ∨
    Owed past ∧ prompts (emit machine (run machine initial past) e) = [] :=
  since_concat

/-- A prompt shows the front. -/
theorem screen_of_printed {entry : PendingApproval} {rest : List PendingApproval}
    (hqueue : (next machine (run machine initial past) e).pending.approvals = entry :: rest)
    (hprint : prompts (emit machine (run machine initial past) e) = [entry]) :
    Screen (past ++ [e]) := by
  have hshown : shown (past ++ [e]) = some entry := by
    rw [shown_concat, hprint]
    rfl
  have howed : ¬ Owed (past ++ [e]) := by
    rw [owed_concat, hprint]
    rintro (huncovers | ⟨-, hnil⟩)
    · simp [huncovers.prompts_eq_nil] at hprint
    · cases hnil
  have hfifo : (run machine initial (past ++ [e])).Fifo := fifo_run _
  rw [← run_concat] at hqueue
  have hqueued := queued_cons hqueue
  refine ⟨?_, ?_, fun h ↦ absurd h howed, ?_⟩
  · rw [hshown]
    rintro _ ⟨⟩
    have hmem : entry.request ∈ (run machine initial (past ++ [e])).queued :=
      hqueued ▸ List.mem_cons_self
    exact List.mem_range.mp (hfifo.suffix.subset hmem)
  · rw [hshown, hqueued]
    rintro _ ⟨⟩ r hr
    obtain rfl | hr := List.mem_cons.mp hr
    · exact Nat.le_refl _
    · exact (List.rel_of_pairwise_cons (hqueued ▸ hfifo.pairwise) hr).le
  · intro _ _ _
    rw [hshown, hqueue]
    rfl

theorem Screen.of_quiet (h : Screen past)
    (hquiet : prompts (emit machine (run machine initial past) e) = []) :
    Screen (past ++ [e]) := by
  have hshown : shown (past ++ [e]) = shown past := by
    rw [shown_concat, hquiet]
    rfl
  constructor
  · rw [hshown, run_concat]
    intro entry hentry
    exact (h.recorded entry hentry).trans_le ((Nat.le_add_right _ _).trans (length_next _ e).ge)
  · rw [hshown, run_concat]
    intro entry hentry r hr
    obtain hr | rfl := queued_next hr
    · exact h.behind entry hentry r hr
    · exact (h.recorded entry hentry).le
  · rw [hshown, run_concat, owed_concat]
    intro howed entry hentry r hr
    obtain huncovers | ⟨howed, -⟩ := howed
    · obtain ⟨front, hfront, hlt⟩ := huncovers.lt (fifo_run past) hr
      exact (h.behind entry hentry front hfront).trans_lt hlt
    · obtain hr | rfl := queued_next hr
      · exact h.passed howed entry hentry r hr
      · exact h.recorded entry hentry
  · rw [hshown, run_concat, owed_concat, not_or]
    rintro ⟨huncovers, howed⟩ howes hnonempty
    have hnot : ¬ Owed past := fun h ↦ howed ⟨h, hquiet⟩
    obtain ⟨howes', hnonempty', hhead⟩ := head_next hquiet huncovers howes hnonempty
    rw [hhead]
    exact h.current hnot howes' hnonempty'

theorem screen_run (es : List StateEvent) : Screen es := by
  apply history_induction machine initial (I := fun es _ ↦ Screen es) screen_nil
  intro past e h
  obtain hquiet | ⟨entry, rest, hqueue, hprint⟩ := prompts_emit (run machine initial past) e
  · exact h.of_quiet hquiet
  · exact screen_of_printed hqueue hprint

/-! ## Endpoints -/

theorem arrivals_concat (past : List StateEvent) (e : StateEvent) :
    arrivals (past ++ [e]) = arrivals past ++ e.reported.toList := by
  rw [arrivals, List.filterMap_append]
  cases h : e.reported <;> simp [arrivals, h]

theorem length_arrivals (past : List StateEvent) :
    (arrivals past).length = (run machine initial past).timers.length := by
  apply history_induction machine initial (I := fun past s ↦ (arrivals past).length = s.timers.length)
  · rfl
  · intro past e h
    rw [arrivals_concat, List.length_append, length_next, h]

/-- The request of an entry is the place of its endpoint among the arrivals. -/
def Labels (past : List StateEvent) (entry : PendingApproval) : Prop :=
  (arrivals past)[entry.request]? = some entry.ep

theorem Labels.concat {entry : PendingApproval} (h : Labels past entry) (e : StateEvent) :
    Labels (past ++ [e]) entry := by
  rw [Labels, arrivals_concat, List.getElem?_append_left (List.getElem?_eq_some_iff.mp h).1]
  exact h

theorem labels_approvals (past : List StateEvent) :
    ∀ entry ∈ (run machine initial past).pending.approvals, Labels past entry := by
  apply history_induction machine initial
    (I := fun past s ↦ ∀ entry ∈ s.pending.approvals, Labels past entry)
  · intro entry hentry
    cases hentry
  · intro past e h entry hentry
    obtain hentry | ⟨hep, hrequest⟩ := approvals_next hentry
    · exact (h entry hentry).concat e
    · rw [Labels, arrivals_concat, hep, hrequest, ← length_arrivals]
      exact List.getElem?_concat_length

theorem labels_shown (past : List StateEvent) : ∀ entry ∈ shown past, Labels past entry := by
  apply history_induction machine initial
    (I := fun past _ ↦ ∀ entry ∈ shown past, Labels past entry)
  · simp [shown, prompts]
  · intro past e h entry hentry
    rw [shown_concat] at hentry
    obtain hquiet | ⟨front, rest, hqueue, hprint⟩ := prompts_emit (run machine initial past) e
    · rw [hquiet] at hentry
      exact (h entry hentry).concat e
    · rw [hprint] at hentry
      obtain rfl : front = entry := by simpa using hentry
      apply labels_approvals (past ++ [e])
      rw [run_concat, hqueue]
      exact List.mem_cons_self

theorem head_of_resolves {s : State} {entry : PendingApproval} (h : resolves s e = some entry) :
    s.input.owesPrompt = false ∧ s.pending.approvals.head? = some entry := by
  have heffect := effect s e
  rw [resolves] at h
  generalize next machine s e = s', emit machine s e = out at heffect h
  cases hinput : s.input with
  | resolving | resolved | returned => simp [hinput] at h
  | reading =>
      refine ⟨rfl, ?_⟩
      cases heffect with
      | popped _ _ hqueue =>
          simp only [hinput, Option.some.injEq] at h
          rw [hqueue, h]
          rfl
      | arrived ep => simp [unknownPeer, hinput] at h
      | idle | expired | missed | late | rejected | prompted | quit | decided | answered
      | destroyed => simp [hinput] at h

theorem each_announced_of_settled {es : List StateEvent} (h : Each Settled es) :
    Each Announced es := by
  intro past e rest hes entry hentry
  obtain ⟨howes, hhead⟩ := head_of_resolves hentry
  have hnot : ¬ Owed past := h past e rest hes (by simp [Option.mem_def.mp hentry])
  have hshown : shown past = some entry := by
    rw [← hhead]
    apply (screen_run past).current hnot howes
    intro hnil
    simp [hnil] at hhead
  rw [hshown, Option.map_some]

/-- While a prompt is owed, the last one is for an earlier request than any in the queue. -/
theorem each_settled_of_announced {es : List StateEvent} (hnodup : (arrivals es).Nodup)
    (h : Each Announced es) : Each Settled es := by
  intro past e rest hes hresolves howed
  obtain ⟨entry, hentry⟩ := Option.ne_none_iff_exists'.mp hresolves
  obtain ⟨-, hhead⟩ := head_of_resolves hentry
  have hmem : entry ∈ (run machine initial past).pending.approvals := List.mem_of_head? hhead
  obtain ⟨last, hlast, hep⟩ := Option.map_eq_some_iff.mp (h past e rest hes entry hentry)
  have hlt : last.request < entry.request :=
    (screen_run past).passed howed last hlast entry.request (List.mem_map_of_mem hmem)
  have hpast : (arrivals past).Nodup := by
    rw [hes, arrivals, List.filterMap_append] at hnodup
    exact hnodup.of_append_left
  have hlabel : (arrivals past)[entry.request]? = some entry.ep := labels_approvals past entry hmem
  have hlabel' : (arrivals past)[last.request]? = some last.ep := labels_shown past last hlast
  apply List.nodup_iff_getElem?_ne_getElem?.mp hpast last.request entry.request hlt
  · exact (List.getElem?_eq_some_iff.mp hlabel).1
  · rw [hlabel, hlabel', hep]

/-- If no key press comes while a prompt is owed, each of them decides the peer that is
shown, and only then where no endpoint is reported twice. -/
theorem each_announced_iff (es : List StateEvent) :
    (Each Settled es → Each Announced es) ∧
      ((arrivals es).Nodup → (Each Announced es ↔ Each Settled es)) := by
  refine ⟨each_announced_of_settled, fun hnodup ↦ ?_⟩
  exact ⟨each_settled_of_announced hnodup, each_announced_of_settled⟩

end Runs

/-- The first request runs out, and a key press accepts the second before it is shown. -/
theorem not_forall_announced : ¬ ∀ es, Each Announced es := by
  intro h
  have hkey := h _ [.unknownPeer ⟨.v4 0x0A000001, 20000⟩, .unknownPeer ⟨.v4 0x0A000002, 20000⟩,
    .timer 0] (.key 'a') [] rfl ⟨1, ⟨.v4 0x0A000002, 20000⟩, 1⟩
  revert hkey
  decide

end State

end LinkExtender
