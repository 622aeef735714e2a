import LinkExtender.State
import LinkExtender.UdpTunnel.Steps

/-!
# The tunnel under the approval queue

The program of `main.cpp` while it runs over UDP: the callback that the constructor of
`State` registers is called by the tunnel in the middle of a receive, and the decisions
of its threads come back as tasks that the thread of the tunnel runs later.
-/

namespace LinkExtender

open EventMachine

/-- A task that `acceptFn` or `rejectFn` has posted. -/
structure PostedTask where
  /-- The call of the callback that handed out the two. -/
  request : ℕ
  accepted : Bool
deriving DecidableEq

structure Extender where
  tunnel : UdpTunnel
  state : State
  /-- What `acceptFn` and `rejectFn` of every call so far have captured as `from`. -/
  captured : List UdpEndpoint
  /-- The tasks in `mIo` that are still to run. -/
  tasks : List PostedTask

/-- What can happen before `stop_listening`.  The tunnel's own events are those of its
thread; the others are steps of the threads of `main.cpp`, and a task may run in any
order. -/
inductive ExtenderEvent where
  | receive (now : TimePoint) (sender : UdpEndpoint) (datagram : Datagram)
  | runMaintenance (now : TimePoint)
  | addPeer (endpoint : UdpEndpoint)
  | removePeer (endpoint : UdpEndpoint)
  | forward (now : TimePoint) (type : TunnelMessageType) (fromNode : NodeId)
      (message : List UInt8) (toNode : Option NodeId)
  | timer (request : ℕ)
  | key (c : Char)
  | input
  | destroy
  | runTask (position : ℕ)
deriving DecidableEq

inductive ExtenderOutput where
  | ofTunnel (out : TunnelOutput)
  | ofState (out : StateOutput)
deriving DecidableEq

namespace TunnelOutput

/-- The endpoint that the callback is called for. -/
def asks? : TunnelOutput → Option UdpEndpoint
  | .unknownPeer endpoint => some endpoint
  | _ => none

end TunnelOutput

namespace StateOutput

/-- The task that a call of `accept` or `reject` posts. -/
def task? : StateOutput → Option PostedTask
  | .accept request => some ⟨request, true⟩
  | .reject request => some ⟨request, false⟩
  | .prompt _ => none

end StateOutput

namespace PostedTask

/-- What the task is to the tunnel, with the endpoint that it has captured. -/
def event (task : PostedTask) (captured : UdpEndpoint) : TunnelEvent :=
  if task.accepted then .acceptPeer captured else .rejectPeer captured

end PostedTask

namespace Extender

/-- The program at its start.  Its runs are those in which no unknown peer comes before the
constructor of `State` has registered the callback: the tunnel's own rejects at once. -/
def start (initialPeers : List UdpEndpoint) : Extender where
  tunnel := UdpTunnel.create initialPeers
  state := State.initial
  captured := []
  tasks := []

/-- A step of the tunnel, in which the callback runs once for every unknown peer. -/
def tunnelStep (x : Extender) (e : TunnelEvent) : Extender × List ExtenderOutput :=
  let out := emit UdpTunnel.machine x.tunnel e
  let asked := out.filterMap TunnelOutput.asks?
  let calls := asked.map StateEvent.unknownPeer
  ({ x with
      tunnel := next UdpTunnel.machine x.tunnel e
      state := run State.machine x.state calls
      captured := x.captured ++ asked },
    out.map .ofTunnel ++ (outputs State.machine x.state calls).map .ofState)

/-- A step of one of the threads of `main.cpp`.  `accept` and `reject` only post. -/
def stateStep (x : Extender) (e : StateEvent) : Extender × List ExtenderOutput :=
  let out := emit State.machine x.state e
  ({ x with
      state := next State.machine x.state e
      tasks := x.tasks ++ out.filterMap StateOutput.task? },
    out.map .ofState)

/-- The tunnel's thread runs one of the posted tasks. -/
def runTask (x : Extender) (position : ℕ) : Extender × List ExtenderOutput :=
  match x.tasks[position]? with
  | none => (x, [])
  | some task =>
      match x.captured[task.request]? with
      | none => (x, [])
      | some captured =>
          tunnelStep { x with tasks := x.tasks.eraseIdx position } (task.event captured)

def machine : Machine Extender ExtenderEvent ExtenderOutput
  | x, .receive now sender datagram => x.tunnelStep (.receive now sender datagram)
  | x, .runMaintenance now => x.tunnelStep (.runMaintenance now)
  | x, .addPeer endpoint => x.tunnelStep (.addPeer endpoint)
  | x, .removePeer endpoint => x.tunnelStep (.removePeer endpoint)
  | x, .forward now type fromNode message toNode =>
      x.tunnelStep (.forward now type fromNode message toNode)
  | x, .timer request => x.stateStep (.timer request)
  | x, .key c => x.stateStep (.key c)
  | x, .input => x.stateStep .input
  | x, .destroy => x.stateStep .destroy
  | x, .runTask position => x.runTask position

/-! ## What a step can do -/

/-- The steps, with the new state and the outputs of each. -/
inductive Effect (x : Extender) : ExtenderEvent → Extender → List ExtenderOutput → Prop
  | tunnel {e : ExtenderEvent} (te : TunnelEvent)
      (hneither : ∀ endpoint, te ≠ .acceptPeer endpoint ∧ te ≠ .rejectPeer endpoint)
      (hadds : ∀ endpoint, te = .addPeer endpoint → e = .addPeer endpoint) :
      Effect x e (x.tunnelStep te).1 (x.tunnelStep te).2
  | state {e : ExtenderEvent} (se : StateEvent) (hcall : ∀ ep, se ≠ .unknownPeer ep)
      (hkey : ∀ c, se = .key c → e = .key c)
      (htimer : ∀ request, se = .timer request → e = .timer request)
      (hdestroy : se = .destroy → e = .destroy) :
      Effect x e (x.stateStep se).1 (x.stateStep se).2
  | idle {position : ℕ} : Effect x (.runTask position) x []
  | task {position : ℕ} {task : PostedTask} {captured : UdpEndpoint}
      (htask : x.tasks[position]? = some task)
      (hcaptured : x.captured[task.request]? = some captured) :
      Effect x (.runTask position)
        (tunnelStep { x with tasks := x.tasks.eraseIdx position } (task.event captured)).1
        (tunnelStep { x with tasks := x.tasks.eraseIdx position } (task.event captured)).2

theorem effect (x : Extender) (e : ExtenderEvent) :
    Effect x e (next machine x e) (emit machine x e) := by
  cases e with
  | receive | runMaintenance | addPeer | removePeer | forward =>
      exact .tunnel _ (by simp) (by simp)
  | timer | key | input | destroy => exact .state _ (by simp) (by simp) (by simp) (by simp)
  | runTask position =>
      simp only [next, emit, machine, runTask]
      cases htask : x.tasks[position]? with
      | none => exact .idle
      | some task =>
          cases hcaptured : x.captured[task.request]? with
          | none =>
              simp only [hcaptured]
              exact .idle
          | some captured =>
              simp only [hcaptured]
              exact .task htask hcaptured

end Extender

end LinkExtender
