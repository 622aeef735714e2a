import LinkExtender.Library.RingBuffer
import Mathlib.Data.Vector.Basic

/-!
# The mailbox of a client

`SharedMessages`: a ring of `MAX_MESSAGES` slots in the shared segment that every
client pushes into and that its owner pops from.  `push` and `pop` hold the mailbox's
mutex, `clear` does not; all three are taken as atomic here.
-/

namespace LinkExtender

def maxMessages : ℕ := 100

/-- `SharedMessages`, for any type `α` of message buffers. -/
structure SharedMessages (α : Type*) where
  messages : Vector (ℕ × α) maxMessages
  messagesFront : ℕ
  messagesBack : ℕ

namespace SharedMessages

open EventMachine BoundedQueue

variable {α : Type*}

def isEmpty (s : SharedMessages α) : Bool := s.messagesFront == s.messagesBack

def isFull (s : SharedMessages α) : Bool :=
  (s.messagesBack + 1) % maxMessages == s.messagesFront

def push (s : SharedMessages α) (source : ℕ) (message : α) : SharedMessages α :=
  if s.isFull then s
  else
    { s with
      messages := s.messages.setIfInBounds s.messagesBack (source, message)
      messagesBack := (s.messagesBack + 1) % maxMessages }

/-- `pop`, with the source and the message where it returns true. -/
def pop (s : SharedMessages α) : SharedMessages α × Option (ℕ × α) :=
  if s.isEmpty then (s, none)
  else
    ({ s with messagesFront := (s.messagesFront + 1) % maxMessages },
      s.messages[s.messagesFront]?)

def clear (s : SharedMessages α) : SharedMessages α :=
  { s with messagesFront := 0, messagesBack := 0 }

/-- The operations of all clients on one mailbox, one after the other. -/
def machine : Machine (SharedMessages α) (Event (ℕ × α)) (Option (ℕ × α))
  | s, .push (source, message) => (s.push source message, [])
  | s, .pop =>
      let (s, popped) := s.pop
      (s, [popped])
  | s, .clear => (s.clear, [])

/-- Both indices are zero, whatever the slots hold. -/
def fresh (messages : Vector (ℕ × α) maxMessages) : SharedMessages α := ⟨messages, 0, 0⟩

/-- What further pops would return: the slots from the front up to the back. -/
def queued (s : SharedMessages α) : List (ℕ × α) :=
  (List.range ((s.messagesBack + maxMessages - s.messagesFront) % maxMessages)).filterMap
    (fun i ↦ s.messages[(s.messagesFront + i) % maxMessages]?)

/-- After a sequence of operations the mailbox has behaved like a queue of all slots
but one. -/
structure BehavesAsQueue (s : SharedMessages α) (es : List (Event (ℕ × α))) : Prop where
  front_lt : (run machine s es).messagesFront < maxMessages
  back_lt : (run machine s es).messagesBack < maxMessages
  outputs_eq : outputs machine s es = outputs (BoundedQueue.machine (maxMessages - 1)) [] es
  /-- Since the last clear everything that was accepted has been popped, or is waiting. -/
  fifo : ∀ before after, es = before ++ after → (before = [] ∨ ∃ init, before = init ++ [.clear]) →
    .clear ∉ after →
    popped machine (run machine s before) after ++ (run machine s es).queued =
      accepted machine (fun s ↦ !s.isFull) (run machine s before) after
  push : ∀ source message, ((run machine s es).push source message).queued =
    if (run machine s es).queued.length < maxMessages - 1 then
      (run machine s es).queued ++ [(source, message)]
    else (run machine s es).queued

/-! ## The queue in the ring -/

/-- The mailbox holds the messages of the queue. -/
def Holds (s : SharedMessages α) (queue : List (ℕ × α)) : Prop :=
  RingBuffer.Represents maxMessages (fun i ↦ s.messages[i]?) s.messagesFront s.messagesBack queue

variable {s : SharedMessages α} {queue : List (ℕ × α)}

theorem holds_fresh (messages : Vector (ℕ × α) maxMessages) : (fresh messages).Holds [] :=
  RingBuffer.represents_nil (by decide : 0 < maxMessages)

theorem Holds.isEmpty_iff (h : s.Holds queue) : s.isEmpty = true ↔ queue = [] := by
  rw [isEmpty, beq_iff_eq]
  exact h.empty_iff

theorem Holds.isFull_iff (h : s.Holds queue) :
    s.isFull = true ↔ ¬ queue.length < maxMessages - 1 := by
  rw [isFull, beq_iff_eq]
  exact h.full_iff

theorem Holds.push (h : s.Holds queue) (source : ℕ) (message : α) :
    (s.push source message).Holds
      (if queue.length < maxMessages - 1 then queue ++ [(source, message)] else queue) := by
  unfold SharedMessages.push
  by_cases hroom : queue.length < maxMessages - 1
  · have hfull : ¬ s.isFull = true := fun hfull ↦ h.isFull_iff.mp hfull hroom
    rw [if_pos hroom, if_neg hfull]
    apply RingBuffer.Represents.push h hroom
    · exact Vector.getElem?_setIfInBounds_self_of_lt h.back_lt
    · intro i hne
      exact Vector.getElem?_setIfInBounds_ne hne.symm
  · rw [if_neg hroom, if_pos (h.isFull_iff.mpr hroom)]
    exact h

theorem pop_of_holds_nil (h : s.Holds []) : s.pop = (s, none) := by
  rw [pop, if_pos (h.isEmpty_iff.mpr rfl)]

theorem Holds.pop {b : ℕ × α} (h : s.Holds (b :: queue)) :
    s.pop.1.Holds queue ∧ s.pop.2 = some b := by
  have hempty : ¬ s.isEmpty = true := by simp [h.isEmpty_iff]
  obtain ⟨hfront, hrest⟩ := RingBuffer.Represents.pop h
  rw [SharedMessages.pop, if_neg hempty]
  exact ⟨hrest, hfront⟩

theorem Holds.next (h : s.Holds queue) (e : Event (ℕ × α)) :
    (next machine s e).Holds (EventMachine.next (BoundedQueue.machine (maxMessages - 1)) queue e) ∧
      emit machine s e = emit (BoundedQueue.machine (maxMessages - 1)) queue e := by
  cases e with
  | push b => exact ⟨h.push b.1 b.2, rfl⟩
  | clear => exact ⟨holds_fresh s.messages, rfl⟩
  | pop =>
      cases queue with
      | nil =>
          simp only [EventMachine.next, emit, machine, pop_of_holds_nil h]
          exact ⟨h, rfl⟩
      | cons b queue =>
          obtain ⟨hrest, hpopped⟩ := h.pop
          simp only [EventMachine.next, emit, machine, hpopped]
          exact ⟨hrest, rfl⟩

theorem Holds.run (h : s.Holds queue) (es : List (Event (ℕ × α))) :
    (run machine s es).Holds (EventMachine.run (BoundedQueue.machine (maxMessages - 1)) queue es) :=
  run_simulation (R := Holds) (fun _ _ e h ↦ (Holds.next h e).1) h es

theorem Holds.queued_eq (h : s.Holds queue) : s.queued = queue := by
  have hcount : (s.messagesBack + maxMessages - s.messagesFront) % maxMessages = queue.length := by
    have hfront := h.front_lt
    have hlength := h.length_lt
    have hback := h.back_eq
    rw [maxMessages] at *
    omega
  rw [queued, hcount]
  exact h.filterMap_range

theorem Holds.accepted_eq (h : s.Holds queue) (es : List (Event (ℕ × α))) :
    accepted machine (fun s ↦ !s.isFull) s es =
      accepted (BoundedQueue.machine (maxMessages - 1))
        (fun queue ↦ queue.length < maxMessages - 1) queue es := by
  apply filterMap_trace_simulation (R := Holds) (fun _ _ e h ↦ (Holds.next h e).1) _ h es
  intro s queue e h
  congr 1
  rw [Bool.eq_iff_iff, Bool.not_eq_true', ← Bool.not_eq_true, h.isFull_iff, not_not,
    decide_eq_true_eq]

theorem Holds.outputs_eq (h : s.Holds queue) (es : List (Event (ℕ × α))) :
    outputs machine s es = outputs (BoundedQueue.machine (maxMessages - 1)) queue es :=
  outputs_simulation (R := Holds) (fun _ _ e h ↦ (Holds.next h e).1)
    (fun _ _ e h ↦ (Holds.next h e).2) h es

/-- A run that has just been cleared, or not begun, holds nothing. -/
theorem Holds.of_clear (h : s.Holds []) {before : List (Event (ℕ × α))}
    (hbefore : before = [] ∨ ∃ init, before = init ++ [.clear]) :
    (EventMachine.run machine s before).Holds [] := by
  rcases hbefore with rfl | ⟨init, rfl⟩
  · exact h
  · rw [run_concat]
    exact holds_fresh _

theorem behavesAsQueue (messages : Vector (ℕ × α) maxMessages) (es : List (Event (ℕ × α))) :
    (fresh messages).BehavesAsQueue es where
  front_lt := ((holds_fresh messages).run es).front_lt
  back_lt := ((holds_fresh messages).run es).back_lt
  outputs_eq := (holds_fresh messages).outputs_eq es
  fifo := by
    rintro before after rfl hbefore hafter
    have hcleared := (holds_fresh messages).of_clear hbefore
    have hlaw := popped_append_run (maxMessages - 1) [] hafter
    rw [List.nil_append, ← hcleared.accepted_eq after, popped, ← hcleared.outputs_eq after]
      at hlaw
    rw [run_append, (hcleared.run after).queued_eq]
    exact hlaw
  push := by
    intro source message
    have hholds := (holds_fresh messages).run es
    rw [hholds.queued_eq]
    exact (hholds.push source message).queued_eq

end SharedMessages

end LinkExtender
