import LinkExtender.ShmTunnel.Backends
import LinkExtender.ShmTunnel.Clients
import LinkExtender.ShmTunnel.Mailbox
import LinkExtender.Library.Channel

/-!
# The shared segment at work

The mailboxes of the segment and the clients that push into them and pop from them.
A mailbox is locked for one `push` or one `pop` at a time, so these are the steps: a
client keeps the pushes that its threads are still to make, and the others may come
between any two of them.  Slots are given out by the constructors; which of them are
distinct is the business of `ShmHost`, here a slot is the name of a client, and one client
at a time sits in it.  `clear` takes no lock: that it is one step here holds only while
nobody pushes into the mailbox.
-/

namespace LinkExtender

open EventMachine

/-- A client with its threads. -/
structure ShmThreads where
  tunnel : ShmTunnel
  /-- `listen` will be called again. -/
  listening : Bool
  /-- What the constructor, and then the thread of the context, is still to push. -/
  pushes : List (ℕ × MessageBuffer)
  /-- What the thread that has called `stop_listening` is still to push. -/
  farewell : List (ℕ × MessageBuffer)

structure ShmSegment where
  broadcast : ℕ → SharedMessages MessageBuffer
  client : ℕ → ShmThreads

inductive ShmSegmentEvent where
  /-- The constructor is given a slot, and reads `num_clients` when it says hello.  A client
  that is still in the slot is gone. -/
  | construct (slot numClients : ℕ)
  /-- The next push of the client's own thread. -/
  | push (slot : ℕ)
  /-- The next push of the thread in `stop_listening`. -/
  | pushFarewell (slot : ℕ)
  /-- The condition of the loop in `listen` is evaluated, and what follows it runs. -/
  | listen (slot : ℕ)
  | forward (slot : ℕ) (now : TimePoint) (type : TunnelMessageType) (fromNode : NodeId)
      (message : List UInt8) (toNode : Option NodeId)
  | stopListening (slot numClients : ℕ)
deriving DecidableEq

namespace ShmSegment

def zeroBuffer : MessageBuffer := MessageBuffer.ofBytes []

/-- A mailbox in a segment of zeros. -/
def zeroMailbox : SharedMessages MessageBuffer :=
  SharedMessages.fresh (Vector.replicate maxMessages (0, zeroBuffer))

/-- A client that has not been constructed. -/
def absent (slot : ℕ) : ShmThreads where
  tunnel := ShmTunnel.create slot
  listening := false
  pushes := []
  farewell := []

/-- A new segment. -/
def initial : ShmSegment where
  broadcast := fun _ ↦ zeroMailbox
  client := absent

/-- The pushes among the outputs of a client. -/
def pushes (out : List ShmOutput) : List (ℕ × MessageBuffer) :=
  out.filterMap fun
    | .push clientIdx _ msg => some (clientIdx, msg)
    | .forwardLocally _ => none

def setClient (s : ShmSegment) (slot : ℕ) (c : ShmThreads) : ShmSegment :=
  { s with client := Function.update s.client slot c }

def setMailbox (s : ShmSegment) (idx : ℕ) (mailbox : SharedMessages MessageBuffer) :
    ShmSegment :=
  { s with broadcast := Function.update s.broadcast idx mailbox }

/-- The constructor, from the slot it is given.  The first client makes the segment
anew. -/
def construct (s : ShmSegment) (slot numClients : ℕ) : ShmSegment :=
  let t := ShmTunnel.create slot
  if slot = 0 then
    { broadcast := fun _ ↦ zeroMailbox
      client := Function.update s.client slot ⟨t, true, [], []⟩ }
  else
    s.setClient slot
      ⟨t, true, pushes (t.sayInTunnelToAll numClients .tunnelHello "Hello"), []⟩

/-- One push into a mailbox. -/
def pushInto (s : ShmSegment) (idx source : ℕ) (msg : MessageBuffer) : ShmSegment :=
  s.setMailbox idx ((s.broadcast idx).push source msg)

def push (s : ShmSegment) (slot : ℕ) : ShmSegment :=
  match (s.client slot).pushes with
  | [] => s
  | (idx, msg) :: rest =>
      (s.setClient slot { s.client slot with pushes := rest }).pushInto idx
        (s.client slot).tunnel.mClientId msg

def pushFarewell (s : ShmSegment) (slot : ℕ) : ShmSegment :=
  match (s.client slot).farewell with
  | [] => s
  | (idx, msg) :: rest =>
      (s.setClient slot { s.client slot with farewell := rest }).pushInto idx
        (s.client slot).tunnel.mClientId msg

/-- What `pop` takes out of the mailbox of a client. -/
def popped (s : ShmSegment) (slot : ℕ) : Option (ℕ × MessageBuffer) :=
  (s.broadcast (s.client slot).tunnel.mClientId).pop.2

/-- The client is inside `listen`, or about to be, with nothing left to push. -/
def isAtLoop (c : ShmThreads) : Bool := c.listening && c.pushes.isEmpty

def listen (s : ShmSegment) (slot : ℕ) : ShmSegment × List (ℕ × LocalMessage) :=
  let c := s.client slot
  let s' := s.setMailbox c.tunnel.mClientId (s.broadcast c.tunnel.mClientId).pop.1
  if isAtLoop c then
    match s.popped slot with
    | some (source, msg) =>
        if c.tunnel.isRunning then
          let (t, out) := c.tunnel.handlePopped source msg
          (s'.setClient slot { c with tunnel := t, pushes := pushes out },
            (ShmTunnel.localCalls out).map (Prod.mk slot))
        else
          -- popped, and dropped; `listen` is not posted again
          (s'.setClient slot { c with listening := false }, [])
    | none => (s'.setClient slot { c with listening := c.tunnel.isRunning }, [])
  else (s, [])

def forward (s : ShmSegment) (slot : ℕ) (now : TimePoint) (type : TunnelMessageType)
    (fromNode : NodeId) (message : List UInt8) (toNode : Option NodeId) : ShmSegment :=
  let c := s.client slot
  if c.pushes.isEmpty then
    let (t, out) := c.tunnel.forward now type fromNode message toNode
    s.setClient slot { c with tunnel := t, pushes := pushes out }
  else s

/-- `ShmTunnel::stop_listening`, without the gateways. -/
def stopListening (s : ShmSegment) (slot numClients : ℕ) : ShmSegment :=
  let c := s.client slot
  let bye := pushes (c.tunnel.sayInTunnelToAll numClients .tunnelBye "Bye")
  (s.setMailbox c.tunnel.mClientId (s.broadcast c.tunnel.mClientId).clear).setClient slot
    { c with tunnel := { c.tunnel with isRunning := false }, farewell := c.farewell ++ bye }

/-- The outputs are the calls of `forward_locally`, each with the client that makes it. -/
def machine : Machine ShmSegment ShmSegmentEvent (ℕ × LocalMessage)
  | s, .construct slot numClients => (s.construct slot numClients, [])
  | s, .push slot => (s.push slot, [])
  | s, .pushFarewell slot => (s.pushFarewell slot, [])
  | s, .listen slot => s.listen slot
  | s, .forward slot now type fromNode message toNode =>
      (s.forward slot now type fromNode message toNode, [])
  | s, .stopListening slot numClients => (s.stopListening slot numClients, [])

/-! ## What a step is for one mailbox -/

/-- The messages that wait in a mailbox, each with its source. -/
def queued (s : ShmSegment) (idx : ℕ) : List (ℕ × MessageBuffer) := (s.broadcast idx).queued

/-- The first of some pushes, if it is one into the mailbox `idx`. -/
def aimed (idx source : ℕ) : List (ℕ × MessageBuffer) → List (ℕ × MessageBuffer)
  | (clientIdx, msg) :: _ => if clientIdx = idx then [(source, msg)] else []
  | [] => []

/-- The call of `push` on the mailbox `idx`. -/
def pushed (idx : ℕ) (s : ShmSegment) : ShmSegmentEvent → List (ℕ × MessageBuffer)
  | .push slot =>
      aimed idx (s.client slot).tunnel.mClientId (s.client slot).pushes
  | .pushFarewell slot =>
      aimed idx (s.client slot).tunnel.mClientId (s.client slot).farewell
  | _ => []

/-- What `pop` takes out of the mailbox `idx`. -/
def taken (idx : ℕ) (s : ShmSegment) : ShmSegmentEvent → List (ℕ × MessageBuffer)
  | .listen slot =>
      if isAtLoop (s.client slot) = true ∧ (s.client slot).tunnel.mClientId = idx then
        (s.popped slot).toList
      else []
  | _ => []

/-- The mailbox `idx` is emptied. -/
def clears (idx : ℕ) (s : ShmSegment) : ShmSegmentEvent → Bool
  | .construct slot _ => slot == 0
  | .stopListening slot _ => (s.client slot).tunnel.mClientId == idx
  | _ => false

/-- Every mailbox holds a queue. -/
def Sound (s : ShmSegment) : Prop := ∀ idx, (s.broadcast idx).Holds (s.queued idx)

/-- The ways in which a step can change the queue in a mailbox. -/
inductive MailboxStep (queue : List (ℕ × MessageBuffer)) :
    List (ℕ × MessageBuffer) → List (ℕ × MessageBuffer) → Bool →
      List (ℕ × MessageBuffer) → Prop
  | cleared : MailboxStep queue [] [] true []
  | accepted (b : ℕ × MessageBuffer) (hroom : queue.length < maxMessages - 1) :
      MailboxStep queue [] [b] false (queue ++ [b])
  | refused (b : ℕ × MessageBuffer) (hfull : ¬ queue.length < maxMessages - 1) :
      MailboxStep queue [] [b] false queue
  | popped (b : ℕ × MessageBuffer) (rest : List (ℕ × MessageBuffer))
      (hqueue : queue = b :: rest) : MailboxStep queue [b] [] false rest
  | same : MailboxStep queue [] [] false queue

theorem holds_zeroMailbox : zeroMailbox.Holds [] := SharedMessages.holds_fresh _

theorem sound_initial : initial.Sound := by
  intro idx
  have hqueued : initial.queued idx = [] := holds_zeroMailbox.queued_eq
  rw [hqueued]
  exact holds_zeroMailbox

@[simp] theorem broadcast_setClient (s : ShmSegment) (slot : ℕ) (c : ShmThreads) :
    (s.setClient slot c).broadcast = s.broadcast := rfl

theorem broadcast_pushInto (s : ShmSegment) (idx source : ℕ) (msg : MessageBuffer) (idx' : ℕ) :
    (s.pushInto idx source msg).broadcast idx' =
      if idx' = idx then (s.broadcast idx).push source msg else s.broadcast idx' := by
  simp only [pushInto, setMailbox, Function.update_apply]

theorem broadcast_setMailbox (s : ShmSegment) (idx : ℕ) (mailbox : SharedMessages MessageBuffer)
    (idx' : ℕ) : (s.setMailbox idx mailbox).broadcast idx' =
      if idx' = idx then mailbox else s.broadcast idx' := by
  simp only [setMailbox, Function.update_apply]

/-- A push changes the mailbox that it goes into, by its one message. -/
theorem Sound.mailboxStep_pushInto {s : ShmSegment} (h : s.Sound) (slot : ℕ) (c : ShmThreads)
    {pending rest : List (ℕ × MessageBuffer)} {clientIdx source : ℕ} {msg : MessageBuffer}
    (hpending : pending = (clientIdx, msg) :: rest) (idx : ℕ) :
    ∃ queue, (((s.setClient slot c).pushInto clientIdx source msg).broadcast idx).Holds queue ∧
      MailboxStep (s.queued idx) [] (aimed idx source pending) false queue := by
  rw [hpending, broadcast_pushInto, aimed]
  by_cases hidx : idx = clientIdx
  · subst hidx
    rw [if_pos rfl, if_pos rfl]
    refine ⟨_, (h idx).push source msg, ?_⟩
    by_cases hroom : (s.queued idx).length < maxMessages - 1
    · rw [if_pos hroom]
      exact .accepted _ hroom
    · rw [if_neg hroom]
      exact .refused _ hroom
  · rw [if_neg hidx, if_neg (Ne.symm hidx)]
    exact ⟨_, h idx, .same⟩

/-- A pop takes the front of the client's own mailbox. -/
theorem Sound.mailboxStep_pop {s : ShmSegment} (h : s.Sound) (slot idx : ℕ) :
    ∃ queue, (if idx = (s.client slot).tunnel.mClientId then
        (s.broadcast (s.client slot).tunnel.mClientId).pop.1 else s.broadcast idx).Holds queue ∧
      MailboxStep (s.queued idx)
        (if (s.client slot).tunnel.mClientId = idx then (s.popped slot).toList else []) [] false
        queue := by
  by_cases hidx : idx = (s.client slot).tunnel.mClientId
  · subst hidx
    rw [if_pos rfl, if_pos rfl, popped]
    have hholds := h (s.client slot).tunnel.mClientId
    cases hqueue : s.queued (s.client slot).tunnel.mClientId with
    | nil =>
        rw [hqueue] at hholds
        rw [SharedMessages.pop_of_holds_nil hholds]
        exact ⟨_, hholds, .same⟩
    | cons b rest =>
        rw [hqueue] at hholds
        obtain ⟨hrest, hpopped⟩ := hholds.pop
        rw [hpopped]
        exact ⟨_, hrest, .popped b rest rfl⟩
  · rw [if_neg hidx, if_neg (Ne.symm hidx)]
    exact ⟨_, h idx, .same⟩

theorem Sound.exists_mailboxStep {s : ShmSegment} (h : s.Sound) (e : ShmSegmentEvent) (idx : ℕ) :
    ∃ queue, ((next machine s e).broadcast idx).Holds queue ∧
      MailboxStep (s.queued idx) (taken idx s e) (pushed idx s e) (clears idx s e) queue := by
  have hsame : MailboxStep (s.queued idx) [] [] false (s.queued idx) := .same
  cases e with
  | construct slot numClients =>
      simp only [next, machine, construct, taken, pushed, clears]
      by_cases hslot : slot = 0
      · rw [if_pos hslot, hslot]
        exact ⟨[], holds_zeroMailbox, .cleared⟩
      · rw [if_neg hslot, beq_eq_false_iff_ne.mpr hslot]
        exact ⟨_, h idx, hsame⟩
  | push slot =>
      simp only [next, machine, push, taken, pushed, clears]
      cases hpushes : (s.client slot).pushes with
      | nil => exact ⟨_, h idx, hsame⟩
      | cons p rest => exact h.mailboxStep_pushInto slot _ rfl idx
  | pushFarewell slot =>
      simp only [next, machine, pushFarewell, taken, pushed, clears]
      cases hfarewell : (s.client slot).farewell with
      | nil => exact ⟨_, h idx, hsame⟩
      | cons p rest => exact h.mailboxStep_pushInto slot _ rfl idx
  | listen slot =>
      simp only [next, machine, listen, taken, pushed, clears]
      by_cases hloop : isAtLoop (s.client slot) = true
      · have hpop := h.mailboxStep_pop slot idx
        simp only [hloop, if_true, true_and]
        rw [← broadcast_setMailbox] at hpop
        cases hpopped : s.popped slot with
        | none => rwa [hpopped] at hpop
        | some b =>
            rw [hpopped] at hpop
            by_cases hrun : (s.client slot).tunnel.isRunning = true
            · simpa only [hrun, if_true, broadcast_setClient] using hpop
            · simpa only [hrun, if_false, Bool.false_eq_true, broadcast_setClient] using hpop
      · simp only [hloop, Bool.false_eq_true, if_false, false_and]
        exact ⟨_, h idx, hsame⟩
  | forward slot now type fromNode message toNode =>
      simp only [next, machine, forward, taken, pushed, clears]
      split
      · exact ⟨_, h idx, hsame⟩
      · exact ⟨_, h idx, hsame⟩
  | stopListening slot numClients =>
      simp only [next, machine, stopListening, taken, pushed, clears, broadcast_setClient,
        broadcast_setMailbox]
      by_cases hidx : idx = (s.client slot).tunnel.mClientId
      · rw [if_pos hidx, hidx, beq_self_eq_true]
        exact ⟨[], SharedMessages.holds_fresh _, .cleared⟩
      · rw [if_neg hidx, beq_eq_false_iff_ne.mpr (Ne.symm hidx)]
        exact ⟨_, h idx, hsame⟩

theorem Sound.next {s : ShmSegment} (h : s.Sound) (e : ShmSegmentEvent) :
    (next machine s e).Sound := by
  intro idx
  obtain ⟨queue, hholds, -⟩ := h.exists_mailboxStep e idx
  rwa [queued, hholds.queued_eq]

theorem Sound.mailboxStep {s : ShmSegment} (h : s.Sound) (e : ShmSegmentEvent) (idx : ℕ) :
    MailboxStep (s.queued idx) (taken idx s e) (pushed idx s e) (clears idx s e)
      ((EventMachine.next machine s e).queued idx) := by
  obtain ⟨queue, hholds, hstep⟩ := h.exists_mailboxStep e idx
  have hqueued : (EventMachine.next machine s e).queued idx = queue := hholds.queued_eq
  rwa [hqueued]

theorem sound_run (es : List ShmSegmentEvent) : (run machine initial es).Sound :=
  run_invariant machine (I := Sound) (fun _ e h ↦ h.next e) sound_initial es

end ShmSegment

end LinkExtender
