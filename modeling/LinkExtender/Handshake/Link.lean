import LinkExtender.UdpTunnel
import Mathlib.Logic.Function.Basic

/-!
# The handshake between two tunnels

What HELLO, KEEPALIVE and BYE are for: each of two parties holds the other with
the time it was last heard of, or does not hold it.  A HELLO is answered by a
party that did not hold the sender; a party that holds the other sends it
KEEPALIVE and lets it go after a silence of `kKeepaliveTimeout`.
-/

namespace LinkExtender

namespace Handshake

open EventMachine

inductive Side where
  | a
  | b
deriving DecidableEq

namespace Side

def other : Side → Side
  | a => b
  | b => a

@[simp] theorem other_other (x : Side) : x.other.other = x := by
  cases x <;> rfl

@[simp] theorem other_ne (x : Side) : x.other ≠ x := by
  cases x <;> decide

@[simp] theorem ne_other (x : Side) : x ≠ x.other := by
  cases x <;> decide

theorem eq_or_eq_other (x y : Side) : y = x ∨ y = x.other := by
  cases x <;> cases y <;> decide

instance decidableForall (P : Side → Prop) [∀ x, Decidable (P x)] :
    Decidable (∀ x, P x) :=
  decidable_of_iff (P .a ∧ P .b)
    ⟨fun h x ↦ by cases x with | a => exact h.1 | b => exact h.2, fun h ↦ ⟨h .a, h .b⟩⟩

end Side

inductive Control where
  | hello
  | keepalive
  | bye
deriving DecidableEq

/-- The steps of two tunnels and the network between them.  The network may
lose, duplicate and reorder; a graceful restart announces itself. -/
inductive HandshakeEvent where
  | tick (side : Side)
  | deliver (packet : ℕ)
  | lose (packet : ℕ)
  | duplicate (packet : ℕ)
  | elapse (duration : ℕ)
  | restart (side : Side) (graceful : Bool)
deriving DecidableEq

/-- `seen x` is the time at which `x`, holding the other side, last heard of it.
A packet in flight carries its sender. -/
structure Link where
  seen : Side → Option TimePoint
  inFlight : List (Side × Control)
  now : TimePoint

namespace Link

def hold (s : Link) (x : Side) (since : Option TimePoint) : Link :=
  { s with seen := Function.update s.seen x since }

def post (s : Link) (x : Side) (c : Control) : Link :=
  { s with inFlight := s.inFlight ++ [(x, c)] }

def tick (s : Link) (x : Side) : Link :=
  match s.seen x with
  | some l => if kKeepaliveTimeout < s.now - l then s.hold x none else s.post x .keepalive
  | none => s.post x .hello

def receive (s : Link) (x : Side) : Control → Link
  | .hello =>
      match s.seen x with
      | some _ => s.hold x (some s.now)
      | none => (s.hold x (some s.now)).post x .hello
  | .keepalive =>
      match s.seen x with
      | some _ => s.hold x (some s.now)
      | none => s
  | .bye => s.hold x none

def step (s : Link) : HandshakeEvent → Link
  | .tick x => s.tick x
  | .deliver i =>
      match s.inFlight[i]? with
      | some p => { s with inFlight := s.inFlight.eraseIdx i }.receive p.1.other p.2
      | none => s
  | .lose i => { s with inFlight := s.inFlight.eraseIdx i }
  | .duplicate i => { s with inFlight := s.inFlight ++ (s.inFlight[i]?).toList }
  | .elapse d => { s with now := s.now + d }
  | .restart x graceful =>
      let s' := s.hold x none
      if graceful ∧ (s.seen x).isSome then s'.post x .bye else s'

def machine : Machine Link HandshakeEvent Empty := fun s e ↦ (s.step e, [])

@[simp] theorem next_machine (s : Link) (e : HandshakeEvent) :
    next machine s e = s.step e := rfl

@[simp] theorem hold_seen_self (s : Link) (x : Side) (since : Option TimePoint) :
    (s.hold x since).seen x = since := by
  simp [hold]

@[simp] theorem hold_seen_other (s : Link) (x : Side) (since : Option TimePoint) :
    (s.hold x since).seen x.other = s.seen x.other := by
  simp [hold]

@[simp] theorem hold_other_seen (s : Link) (x : Side) (since : Option TimePoint) :
    (s.hold x.other since).seen x = s.seen x := by
  have hseen := hold_seen_other s x.other since
  rwa [Side.other_other] at hseen

@[simp] theorem hold_inFlight (s : Link) (x : Side) (since : Option TimePoint) :
    (s.hold x since).inFlight = s.inFlight := rfl

@[simp] theorem hold_now (s : Link) (x : Side) (since : Option TimePoint) :
    (s.hold x since).now = s.now := rfl

@[simp] theorem post_seen (s : Link) (x : Side) (c : Control) :
    (s.post x c).seen = s.seen := rfl

@[simp] theorem post_inFlight (s : Link) (x : Side) (c : Control) :
    (s.post x c).inFlight = s.inFlight ++ [(x, c)] := rfl

@[simp] theorem post_now (s : Link) (x : Side) (c : Control) :
    (s.post x c).now = s.now := rfl

end Link

/-! ## Recovery

From some moment on nothing is lost, nobody restarts, and both sides tick at
every interval, each time with the packets of earlier ticks delivered. -/

structure Schedule where
  due : Side → TimePoint
  ticks : Side → ℕ

def Schedule.advance (r : Schedule) : HandshakeEvent → Schedule
  | .tick x =>
      ⟨Function.update r.due x (r.due x + kMaintenanceInterval),
        Function.update r.ticks x (r.ticks x + 1)⟩
  | _ => r

/-- The next event belongs to a recovery at time `now`; `settled` says that no
packet is in flight. -/
def Schedule.Allows (r : Schedule) (now : TimePoint) (settled : Prop) :
    HandshakeEvent → Prop
  | .tick x => now = r.due x ∧ settled
  | .deliver _ | .duplicate _ => True
  | .elapse d => ∀ x, now + d ≤ r.due x
  | .lose _ | .restart _ _ => False

instance (r : Schedule) (now : TimePoint) (settled : Prop) [Decidable settled]
    (e : HandshakeEvent) : Decidable (r.Allows now settled e) :=
  match e with
  | .tick x => inferInstanceAs (Decidable (now = r.due x ∧ settled))
  | .deliver _ | .duplicate _ => isTrue trivial
  | .elapse d => inferInstanceAs (Decidable (∀ x, now + d ≤ r.due x))
  | .lose _ | .restart _ _ => isFalse id

/-- A schedule whose first ticks are due within one interval of `now`. -/
def Schedule.StartsAt (r : Schedule) (now : TimePoint) : Prop :=
  ∀ x, now ≤ r.due x ∧ r.due x ≤ now + kMaintenanceInterval ∧ r.ticks x = 0

instance (r : Schedule) (now : TimePoint) : Decidable (r.StartsAt now) :=
  inferInstanceAs (Decidable (∀ _, _))

namespace Link

abbrev scheduled : Machine (Link × Schedule) HandshakeEvent Empty :=
  monitored machine (fun r _ e ↦ r.advance e)

def Recovering (p : Link × Schedule) (e : HandshakeEvent) : Prop :=
  p.2.Allows p.1.now (p.1.inFlight = []) e

/-- A ticking side that is held by the other holds the other too. -/
def Reciprocated (s : Link) : HandshakeEvent → Prop
  | .tick x => s.seen x.other ≠ none → s.seen x ≠ none
  | _ => True

/-! ### What holds in the course of a recovery -/

/-- Every tick is at most an interval away and on its side's grid from `t₀` on. -/
def OnTime (t₀ : TimePoint) (s : Link) (r : Schedule) : Prop :=
  ∀ x, s.now ≤ r.due x ∧ r.due x ≤ s.now + kMaintenanceInterval ∧
    t₀ + kMaintenanceInterval * r.ticks x ≤ r.due x ∧
    r.due x ≤ t₀ + kMaintenanceInterval * (r.ticks x + 1)

/-- Both sides hold each other and have heard of each other since the last tick
of the other, or are about to. -/
structure Mutual (s : Link) (r : Schedule) : Prop where
  held : ∀ x, ∃ l, s.seen x = some l ∧
    (r.due x.other - kMaintenanceInterval ≤ l ∨ ∃ c, (x.other, c) ∈ s.inFlight)
  quiet : ∀ p ∈ s.inFlight, p.2 ≠ .bye

/-- `x` does not hold the other side, which holds `x` and hears its HELLOs. -/
structure HalfOpen (x : Side) (s : Link) (r : Schedule) : Prop where
  released : s.seen x = none
  held : ∃ l, s.seen x.other = some l ∧
    (r.due x - kMaintenanceInterval ≤ l ∨ (x, .hello) ∈ s.inFlight)
  traffic : ∀ p ∈ s.inFlight, p = (x, .hello) ∨ p = (x.other, .keepalive)

/-- Before it is decided how the recovery ends. -/
inductive Undecided (s : Link) (r : Schedule) : Prop where
  | unticked (hticks : ∀ x, r.ticks x = 0)
  | refreshing (x : Side) (hticks : r.ticks x.other = 0) (hheld : s.seen x ≠ none)
      (hother : ∃ l, s.seen x.other = some l ∧
        (r.due x - kMaintenanceInterval ≤ l ∨ (x, .keepalive) ∈ s.inFlight))
      (htraffic : ∀ p ∈ s.inFlight, p = (x, .keepalive))
  | lopsided (x : Side) (hticks : r.ticks x ≤ 2) (hreleased : s.seen x = none)
      (hheld : s.seen x.other ≠ none)
      (htraffic : ∀ p ∈ s.inFlight, p = (x.other, .keepalive))
  | apart (hticks : ∃ x, r.ticks x ≤ 2) (hreleased : ∀ x, s.seen x = none)
      (htraffic : ∀ p, p ∉ s.inFlight)
  | greeting (x : Side) (hticks : ∃ y, r.ticks y ≤ 3) (hreleased : ∀ y, s.seen y = none)
      (hsent : (x, .hello) ∈ s.inFlight) (htraffic : ∀ p ∈ s.inFlight, p = (x, .hello))
  | answering (x : Side) (hticks : ∃ y, r.ticks y ≤ 3) (hreleased : s.seen x = none)
      (hheld : ∃ l, s.seen x.other = some l ∧ r.due x - kMaintenanceInterval ≤ l)
      (hsent : (x.other, .hello) ∈ s.inFlight)
      (htraffic : ∀ p ∈ s.inFlight, p = (x, .hello) ∨ p = (x.other, .hello))

end Link

end Handshake

end LinkExtender
