import LinkExtender.Wire
import LinkExtender.Library.Machine

/-!
# The approval queue

`State` of `main.cpp`: the queue of unknown peers that wait for a decision of the
operator.  The callback of the tunnel, one timer thread for each call of it, the input
thread and `~State` share the queue under a mutex.  A step below is one critical
section, or what a thread does between two of them.
-/

namespace LinkExtender

structure PendingApproval where
  id : UInt64
  ep : UdpEndpoint
  /-- The pair `accept` and `reject`, as the number of the call that handed it out. -/
  request : ℕ
deriving DecidableEq

structure SharedPending where
  approvals : List PendingApproval
  nextId : UInt64
  alive : Bool
deriving DecidableEq

/-- Where a timer thread stands. -/
inductive TimerThread where
  /-- Before its first section, with the id that it has captured. -/
  | sleeping (id : UInt64)
  /-- It has found `alive` false. -/
  | returned
  /-- Behind its first section, with `entry`. -/
  | swept (entry : Option PendingApproval)
  /-- `reject()` has been called, and the next prompt is to be printed. -/
  | rejected
  | finished
deriving DecidableEq

/-- Where the input thread stands. -/
inductive InputThread where
  | reading
  /-- Behind the first section of `resolvePendingApproval`. -/
  | resolving (entry : PendingApproval) (accept hasNext : Bool)
  | resolved (hasNext : Bool)
  | returned
deriving DecidableEq

structure State where
  pending : SharedPending
  /-- The timer threads, by the number of the call that has started them. -/
  timers : List TimerThread
  input : InputThread
deriving DecidableEq

inductive StateEvent where
  /-- The tunnel calls the unknown-peer callback. -/
  | unknownPeer (ep : UdpEndpoint)
  /-- A timer thread takes its next step. -/
  | timer (request : ℕ)
  /-- The input thread reads a key. -/
  | key (c : Char)
  /-- The input thread takes its next step behind a key. -/
  | input
  /-- `~State`, once the main thread has joined the input thread. -/
  | destroy
deriving DecidableEq

inductive StateOutput where
  /-- The prompt for an entry, which shows its `ep`. -/
  | prompt (entry : PendingApproval)
  | accept (request : ℕ)
  | reject (request : ℕ)
deriving DecidableEq

namespace State

open EventMachine

def initial : State where
  pending := ⟨[], 0, true⟩
  timers := []
  input := .reading

/-- `printNextPrompt`, and its copy in `resolvePendingApproval`. -/
def printNextPrompt (pending : SharedPending) : List StateOutput :=
  pending.approvals.head?.toList.map .prompt

/-! ## The callback -/

def unknownPeer (s : State) (ep : UdpEndpoint) : State × List StateOutput :=
  let id := s.pending.nextId
  let wasEmpty := s.pending.approvals.isEmpty
  let pending : SharedPending :=
    { s.pending with
      approvals := s.pending.approvals ++ [⟨id, ep, s.timers.length⟩]
      nextId := id + 1 }
  ({ s with pending := pending, timers := s.timers ++ [.sleeping id] },
    if wasEmpty then printNextPrompt pending else [])

/-! ## The timer threads -/

/-- The first section.  Only the front of the queue is looked at. -/
def expire (pending : SharedPending) (id : UInt64) : SharedPending × TimerThread :=
  if pending.alive then
    match pending.approvals with
    | entry :: rest =>
        if entry.id = id then ({ pending with approvals := rest }, .swept (some entry))
        else (pending, .swept none)
    | [] => (pending, .swept none)
  else (pending, .returned)

def timer (s : State) (request : ℕ) : State × List StateOutput :=
  match s.timers[request]? with
  | some (.sleeping id) =>
      let (pending, thread) := expire s.pending id
      ({ s with pending := pending, timers := s.timers.set request thread }, [])
  | some (.swept (some entry)) =>
      ({ s with timers := s.timers.set request .rejected }, [.reject entry.request])
  | some .rejected =>
      ({ s with timers := s.timers.set request .finished },
        if s.pending.alive then printNextPrompt s.pending else [])
  | _ => (s, [])

/-! ## The input thread -/

/-- The first section of `resolvePendingApproval`. -/
def resolvePendingApproval (s : State) (accept : Bool) : State :=
  match s.pending.approvals with
  | entry :: rest =>
      { s with
        pending := { s.pending with approvals := rest }
        input := .resolving entry accept (!rest.isEmpty) }
  | [] => s

def key (s : State) (c : Char) : State :=
  match s.input with
  | .reading =>
      if c = 'q' then { s with input := .returned }
      else if c = 'a' then s.resolvePendingApproval true
      else if c = 'd' then s.resolvePendingApproval false
      else s
  | _ => s

/-- The rest of `resolvePendingApproval`: the call, and the prompt for the next entry. -/
def inputStep (s : State) : State × List StateOutput :=
  match s.input with
  | .resolving entry accept hasNext =>
      ({ s with input := .resolved hasNext },
        [if accept then .accept entry.request else .reject entry.request])
  | .resolved hasNext =>
      ({ s with input := .reading }, if hasNext then printNextPrompt s.pending else [])
  | _ => (s, [])

/-! ## The destructor -/

/-- The body of `~State` is one section. -/
def destroy (s : State) : State × List StateOutput :=
  if s.input = .returned ∧ s.pending.alive = true then
    ({ s with pending := { s.pending with approvals := [], alive := false } },
      s.pending.approvals.map (fun entry ↦ .reject entry.request))
  else (s, [])

def machine : Machine State StateEvent StateOutput
  | s, .unknownPeer ep => s.unknownPeer ep
  | s, .timer request => s.timer request
  | s, .key c => (s.key c, [])
  | s, .input => s.inputStep
  | s, .destroy => s.destroy

end State

end LinkExtender
