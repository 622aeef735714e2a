import LinkExtender.Handshake.Recovery
import LinkExtender.UdpTunnel.Session

/-!
# Two tunnels and the network between them

Two `UdpTunnel`s that have each other as a peer, with the datagrams in flight.
Seen from the entries that the two keep of each other, this is the link of
`Handshake.Link`, step by step.
-/

namespace LinkExtender

namespace Handshake

open EventMachine UdpTunnel

/-- Where the two sides listen, and the peers that each is constructed with. -/
structure Setup where
  address : Side → UdpEndpoint
  peers : Side → List UdpEndpoint
  distinct : ∀ x, (peers x).Nodup
  known : ∀ x, address x.other ∈ peers x

structure Packet where
  sender : Side
  datagram : Datagram
deriving DecidableEq

structure Joint where
  tunnel : Side → UdpTunnel
  inFlight : List Packet
  now : TimePoint

namespace Setup

def packets (g : Setup) (x : Side) (out : List TunnelOutput) : List Packet :=
  (sentTo (g.address x.other) out).filterMap fun bytes ↦
    if h : bytes.length ≤ kMaxMessageSize then some ⟨x, ⟨bytes, h⟩⟩ else none

def put (g : Setup) (j : Joint) (x : Side) (r : UdpTunnel × List TunnelOutput) : Joint :=
  { j with
    tunnel := Function.update j.tunnel x r.1
    inFlight := j.inFlight ++ g.packets x r.2 }

def step (g : Setup) (j : Joint) : HandshakeEvent → Joint
  | .tick x => g.put j x ((j.tunnel x).runMaintenance j.now)
  | .deliver i =>
      match j.inFlight[i]? with
      | some p =>
          g.put { j with inFlight := j.inFlight.eraseIdx i } p.sender.other
            ((j.tunnel p.sender.other).receive j.now (g.address p.sender) p.datagram)
      | none => j
  | .lose i => { j with inFlight := j.inFlight.eraseIdx i }
  | .duplicate i => { j with inFlight := j.inFlight ++ (j.inFlight[i]?).toList }
  | .elapse d => { j with now := j.now + d }
  | .restart x graceful =>
      g.put j x (create (g.peers x),
        if graceful then (j.tunnel x).stopListening.2 else [])

def machine (g : Setup) : Machine Joint HandshakeEvent Empty := fun j e ↦ (g.step j e, [])

@[simp] theorem next_machine (g : Setup) (j : Joint) (e : HandshakeEvent) :
    next g.machine j e = g.step j e := rfl

def start (g : Setup) (now : TimePoint) : Joint := ⟨fun x ↦ create (g.peers x), [], now⟩

/-- `x` has a connected entry of the other side. -/
def Holds (g : Setup) (j : Joint) (x : Side) : Prop :=
  (j.tunnel x).isConnected (g.address x.other) = true

instance (g : Setup) (j : Joint) (x : Side) : Decidable (g.Holds j x) :=
  inferInstanceAs (Decidable (_ = _))

/-- A ticking side that the other holds connected holds the other connected. -/
def Reciprocated (g : Setup) (j : Joint) : HandshakeEvent → Prop
  | .tick x => g.Holds j x.other → g.Holds j x
  | _ => True

def scheduled (g : Setup) : Machine (Joint × Schedule) HandshakeEvent Empty :=
  monitored g.machine (fun r _ e ↦ r.advance e)

/-- Nothing is lost, and a tick comes when everything has been delivered; for the first one,
also what was in flight before. -/
def Recovering (p : Joint × Schedule) (e : HandshakeEvent) : Prop :=
  p.2.Allows p.1.now (p.1.inFlight = []) e

instance (g : Setup) (j : Joint) (e : HandshakeEvent) : Decidable (g.Reciprocated j e) :=
  match e with
  | .tick x => inferInstanceAs (Decidable (g.Holds j x.other → g.Holds j x))
  | .deliver _ | .lose _ | .duplicate _ | .elapse _ | .restart _ _ => isTrue trivial

instance (p : Joint × Schedule) (e : HandshakeEvent) : Decidable (Recovering p e) :=
  inferInstanceAs (Decidable (p.2.Allows p.1.now (p.1.inFlight = []) e))

/-! ## The link that the two tunnels implement -/

def controlType : Control → TunnelMessageType
  | .hello => .tunnelHello
  | .keepalive => .tunnelKeepalive
  | .bye => .tunnelBye

def packet (p : Side × Control) : Packet := ⟨p.1, controlDatagram (controlType p.2)⟩

structure Represents (g : Setup) (j : Joint) (s : Link) : Prop where
  ready : ∀ x, (j.tunnel x).Ready (g.address x.other)
  seen : ∀ x, s.seen x = (j.tunnel x).heldSince (g.address x.other)
  inFlight : j.inFlight = s.inFlight.map packet
  now : j.now = s.now

theorem packets_of_sentTo_nil (g : Setup) {x : Side} {out : List TunnelOutput}
    (h : sentTo (g.address x.other) out = []) : g.packets x out = [] := by
  simp [packets, h]

theorem packets_of_sentTo (g : Setup) {x : Side} {out : List TunnelOutput} (c : Control)
    (h : sentTo (g.address x.other) out = [controlBytes (controlType c)]) :
    g.packets x out = [(x, c)].map packet := by
  have hlen : (controlBytes (controlType c)).length ≤ kMaxMessageSize := by
    rw [length_controlBytes]
    decide
  simp [packets, h, hlen, packet, controlDatagram]

theorem Represents.put {g : Setup} {j : Joint} {s : Link} (h : Represents g j s)
    {x : Side} {r : UdpTunnel × List TunnelOutput} {since : Option TimePoint}
    (sent : List (Side × Control)) (hready : r.1.Ready (g.address x.other))
    (hsince : r.1.heldSince (g.address x.other) = since)
    (hsent : g.packets x r.2 = sent.map packet) {s' : Link}
    (hseen' : s'.seen = Function.update s.seen x since)
    (hflight' : s'.inFlight = s.inFlight ++ sent) (hnow' : s'.now = s.now) :
    Represents g (g.put j x r) s' := by
  refine ⟨fun y ↦ ?_, fun y ↦ ?_, ?_, ?_⟩
  · by_cases hy : y = x
    · subst hy
      simpa [Setup.put] using hready
    · simpa [Setup.put, hy] using h.ready y
  · rw [hseen']
    by_cases hy : y = x
    · subst hy
      simpa [Setup.put] using hsince.symm
    · simpa [Setup.put, hy] using h.seen y
  · simp [Setup.put, h.inFlight, hsent, hflight']
  · rw [hnow', ← h.now]
    rfl

theorem update_seen_self (s : Link) (x : Side) {since : Option TimePoint}
    (h : s.seen x = since) : s.seen = Function.update s.seen x since := by
  rw [← h, Function.update_eq_self]

theorem Represents.tick {g : Setup} {j : Joint} {s : Link} (h : Represents g j s)
    (x : Side) : Represents g (g.step j (.tick x)) (s.step (.tick x)) := by
  have hready : ((j.tunnel x).runMaintenance j.now).1.Ready (g.address x.other) :=
    ready_next (h.ready x) (e := .runMaintenance j.now) (by simp)
  rcases runMaintenance_spec (h.ready x) j.now with
    ⟨hnone, hnone', hsent⟩ | ⟨l, hl, ⟨hlate, hnone', hsent⟩ | ⟨hfresh, hl', hsent⟩⟩
  · rw [← h.seen x] at hnone
    apply h.put [(x, .hello)] hready hnone' (packets_of_sentTo g .hello hsent)
    · rw [Link.step, Link.tick_of_released hnone]
      exact update_seen_self s x hnone
    · rw [Link.step, Link.tick_of_released hnone]
      rfl
    · rw [Link.step, Link.now_tick]
  · rw [← h.seen x] at hl
    rw [h.now] at hlate
    apply h.put [] hready hnone' (packets_of_sentTo_nil g hsent)
    · rw [Link.step, Link.tick_of_late hl hlate]
      rfl
    · rw [Link.step, Link.tick_of_late hl hlate, List.append_nil]
      rfl
    · rw [Link.step, Link.now_tick]
  · rw [← h.seen x] at hl
    rw [h.now] at hfresh
    refine h.put [(x, .keepalive)] hready hl' (packets_of_sentTo g .keepalive hsent)
      ?_ ?_ ?_
    · rw [Link.step, Link.tick_of_fresh hl (not_lt.mp hfresh)]
      exact update_seen_self s x hl
    · rw [Link.step, Link.tick_of_fresh hl (not_lt.mp hfresh)]
      rfl
    · rw [Link.step, Link.now_tick]

theorem Represents.receive {g : Setup} {j : Joint} {s : Link} (h : Represents g j s)
    (x : Side) (c : Control) :
    Represents g (g.put j x ((j.tunnel x).receive j.now (g.address x.other)
      (controlDatagram (controlType c)))) (s.receive x c) := by
  have hready : ((j.tunnel x).receive j.now (g.address x.other)
      (controlDatagram (controlType c))).1.Ready (g.address x.other) :=
    ready_next (h.ready x) (e := .receive j.now _ _) (by simp)
  obtain ⟨⟨hhello, hhelloOut⟩, ⟨hkeep, hkeepOut⟩, hbye, hbyeOut⟩ :=
    receive_control_spec (h.ready x) j.now
  rw [← h.seen x] at hhelloOut hkeep
  have hquiet : ∀ {out : List TunnelOutput}, out = [] → g.packets x out = [] := by
    rintro _ rfl
    rfl
  cases c with
  | hello =>
      have hnow := hhello.trans (congrArg some h.now)
      cases hx : s.seen x with
      | none =>
          rw [if_pos hx] at hhelloOut
          rw [Link.receive_hello_of_released hx]
          exact h.put [(x, .hello)] hready hnow (packets_of_sentTo g .hello hhelloOut)
            rfl rfl rfl
      | some l =>
          rw [if_neg (by simp [hx])] at hhelloOut
          rw [Link.receive_of_held hx (by simp)]
          exact h.put [] hready hnow (packets_of_sentTo_nil g hhelloOut) rfl
            (List.append_nil _).symm rfl
  | keepalive =>
      cases hx : s.seen x with
      | none =>
          rw [hx] at hkeep
          rw [Link.receive_keepalive_of_released hx]
          exact h.put [] hready hkeep (hquiet hkeepOut) (update_seen_self s x hx)
            (List.append_nil _).symm rfl
      | some l =>
          rw [hx] at hkeep
          have hnow := hkeep.trans (congrArg some h.now)
          rw [Link.receive_of_held hx (by simp)]
          exact h.put [] hready hnow (hquiet hkeepOut) rfl (List.append_nil _).symm rfl
  | bye =>
      exact h.put [] hready hbye (hquiet hbyeOut) rfl (List.append_nil _).symm rfl

theorem Represents.network {g : Setup} {j : Joint} {s : Link} (h : Represents g j s)
    {flight : List Packet} {flight' : List (Side × Control)}
    (hflight : flight = flight'.map packet) :
    Represents g { j with inFlight := flight } { s with inFlight := flight' } :=
  ⟨h.ready, h.seen, hflight, h.now⟩

theorem Represents.step {g : Setup} {j : Joint} {s : Link} (h : Represents g j s)
    (e : HandshakeEvent) : Represents g (g.step j e) (s.step e) := by
  cases e with
  | tick x => exact h.tick x
  | deliver i =>
      have hget : j.inFlight[i]? = (s.inFlight[i]?).map packet := by
        rw [h.inFlight, List.getElem?_map]
      cases hp : s.inFlight[i]? with
      | none =>
          rw [hp, Option.map_none] at hget
          simpa only [Setup.step, Link.step, hp, hget] using h
      | some p =>
          rw [hp] at hget
          simp only [Setup.step, Link.step, hp, hget, Option.map_some]
          have herased : j.inFlight.eraseIdx i = (s.inFlight.eraseIdx i).map packet := by
            rw [h.inFlight, List.eraseIdx_map]
          have hreceived := (h.network herased).receive p.1.other p.2
          rwa [Side.other_other] at hreceived
  | lose i =>
      apply h.network
      rw [h.inFlight, List.eraseIdx_map]
  | duplicate i =>
      apply h.network
      rw [h.inFlight, List.getElem?_map, List.map_append]
      cases s.inFlight[i]? <;> rfl
  | elapse d =>
      refine ⟨h.ready, h.seen, h.inFlight, ?_⟩
      simp only [Setup.step, Link.step, h.now]
  | restart x graceful =>
      have hready := ready_create (g.distinct x) (g.known x)
      have hsince := heldSince_create (g.peers x) (g.address x.other)
      have hbye := sentTo_stopListening (h.ready x)
      rw [← h.seen x] at hbye
      by_cases hsays : graceful ∧ (s.seen x).isSome
      · obtain ⟨rfl, hheld⟩ := hsays
        rw [if_neg (Option.isSome_iff_ne_none.mp hheld)] at hbye
        simp only [Link.step, hheld, and_self, if_true]
        exact h.put (r := (create (g.peers x), (j.tunnel x).stopListening.2)) [(x, .bye)]
          hready hsince (packets_of_sentTo g .bye hbye) rfl rfl rfl
      · simp only [Link.step, if_neg hsays]
        refine h.put [] hready hsince (packets_of_sentTo_nil g ?_) rfl
          (List.append_nil _).symm rfl
        cases graceful with
        | false => rfl
        | true =>
            have hnone : s.seen x = none := by simpa using hsays
            rw [if_pos hnone] at hbye
            exact hbye

theorem represents_start (g : Setup) (now : TimePoint) :
    Represents g (g.start now) ⟨fun _ ↦ none, [], now⟩ :=
  ⟨fun x ↦ ready_create (g.distinct x) (g.known x),
    fun x ↦ (heldSince_create (g.peers x) _).symm, rfl, rfl⟩

theorem Represents.holds_iff {g : Setup} {j : Joint} {s : Link} (h : Represents g j s)
    (x : Side) : g.Holds j x ↔ s.seen x ≠ none := by
  rw [h.seen x]
  exact isConnected_iff_heldSince

theorem Represents.reciprocated_iff {g : Setup} {j : Joint} {s : Link}
    (h : Represents g j s) (e : HandshakeEvent) :
    g.Reciprocated j e ↔ s.Reciprocated e := by
  cases e with
  | tick x => exact imp_congr (h.holds_iff x.other) (h.holds_iff x)
  | _ => exact Iff.rfl

theorem Represents.settled_iff {g : Setup} {j : Joint} {s : Link} (h : Represents g j s) :
    j.inFlight = [] ↔ s.inFlight = [] := by
  rw [h.inFlight, List.map_eq_nil_iff]

/-! ## Recovery of the two tunnels -/

/-- From any reachable state, a recovery with eight ticks of both sides ends
with both holding each other connected exactly when, at every tick, the ticking
side held the other or was not held by it. -/
theorem recovers_iff_reciprocated (g : Setup) (began : TimePoint)
    (past recovery : List HandshakeEvent) (r : Schedule)
    (hstarts : r.StartsAt (run g.machine (g.start began) past).now)
    (hrecovery : Along g.scheduled Recovering
      (run g.machine (g.start began) past, r) recovery)
    (hticks : ∀ x, 8 ≤
      (run g.scheduled (run g.machine (g.start began) past, r) recovery).2.ticks x) :
    (∀ x, g.Holds (run g.machine (g.start began) (past ++ recovery)) x) ↔
      Along g.machine g.Reciprocated (run g.machine (g.start began) past) recovery := by
  have hstep : ∀ j s e, Represents g j s →
      Represents g (next g.machine j e) (next Link.machine s e) := fun _ _ e h ↦ h.step e
  have hpast := run_simulation hstep (represents_start g began) past
  rw [run_append]
  generalize run g.machine (g.start began) past = j at *
  generalize run Link.machine ⟨fun _ ↦ none, [], began⟩ past = s at *
  -- the schedule runs alike beside both machines
  have hscheduled : ∀ (p : Joint × Schedule) (q : Link × Schedule) (e : HandshakeEvent),
      Represents g p.1 q.1 ∧ p.2 = q.2 →
      Represents g (next g.scheduled p e).1 (next Link.scheduled q e).1 ∧
        (next g.scheduled p e).2 = (next Link.scheduled q e).2 := by
    rintro p q e ⟨h, heq⟩
    exact ⟨h.step e, by rw [Setup.scheduled, next_monitored, next_monitored, heq]⟩
  have hbeside : Represents g (run g.scheduled (j, r) recovery).1
        (run Link.scheduled (s, r) recovery).1 ∧
      (run g.scheduled (j, r) recovery).2 = (run Link.scheduled (s, r) recovery).2 :=
    run_simulation hscheduled ⟨hpast, rfl⟩ recovery
  have halong : Along Link.scheduled Link.Recovering (s, r) recovery := by
    refine (along_simulation hscheduled ?_ ⟨hpast, rfl⟩ recovery).mp hrecovery
    rintro p q e ⟨h, heq⟩
    rw [Recovering, Link.Recovering, heq, h.now, h.settled_iff]
  have hontime : Link.OnTime s.now s r := by
    intro x
    obtain ⟨hlower, hupper, hzero⟩ := hstarts x
    rw [hpast.now] at hlower hupper
    rw [hzero]
    dsimp only [TimePoint, kMaintenanceInterval, seconds] at *
    omega
  have hundecided : Link.Undecided s r := .unticked fun x ↦ (hstarts x).2.2
  have hlink := Link.recovers_iff (p := (s, r)) hundecided hontime halong fun x ↦ by
    rw [← hbeside.2]
    exact le_trans (by decide) (hticks x)
  rw [along_simulation hstep (fun _ _ e h ↦ h.reciprocated_iff e) hpast, ← hlink]
  have hfinal := hbeside.1
  rw [Setup.scheduled, run_monitored_fst] at hfinal
  exact forall_congr' fun x ↦ hfinal.holds_iff x

/-- Two tunnels on one machine, each constructed with the other as its peer. -/
def pair : Setup where
  address := fun x ↦ match x with | .a => localhost 1 | .b => localhost 2
  peers := fun x ↦ match x with | .a => [localhost 2] | .b => [localhost 1]
  distinct := fun x ↦ by cases x <;> decide
  known := fun x ↦ by cases x <;> decide

/-- Both sides tick, the packets of each tick arrive, and an interval passes. -/
def round : List HandshakeEvent :=
  [.tick .a, .deliver 0, .deliver 0, .deliver 0, .tick .b, .deliver 0,
    .elapse 5000000000]

def eightRounds : List HandshakeEvent := (List.replicate 8 round).flatten

def dueNow (now : TimePoint) : Schedule := ⟨fun _ ↦ now, fun _ ↦ 0⟩

/-- Started together, the two tunnels find each other. -/
theorem recovers_after_start :
    pair.Holds (run pair.machine (pair.start 0) ([] ++ eightRounds)) .a ∧
      pair.Holds (run pair.machine (pair.start 0) ([] ++ eightRounds)) .b := by
  have h := (recovers_iff_reciprocated pair 0 [] eightRounds (dueNow 0)
    (by decide +kernel) (by decide +kernel) (by decide +kernel)).mpr (by decide +kernel)
  exact ⟨h .a, h .b⟩

/-- The first HELLO arrives and its reply is lost. -/
def lostReply : List HandshakeEvent := [.tick .a, .deliver 0, .lose 0]

/-- After a lost reply, eight undisturbed rounds leave `a` without `b`, which
holds `a` all the time. -/
theorem half_open_after_lost_reply :
    (dueNow 0).StartsAt (run pair.machine (pair.start 0) lostReply).now ∧
    Along pair.scheduled Recovering
      (run pair.machine (pair.start 0) lostReply, dueNow 0) eightRounds ∧
    (∀ x, 8 ≤ (run pair.scheduled
      (run pair.machine (pair.start 0) lostReply, dueNow 0) eightRounds).2.ticks x) ∧
    pair.Holds (run pair.machine (pair.start 0) (lostReply ++ eightRounds)) .b ∧
    ¬ pair.Holds (run pair.machine (pair.start 0) (lostReply ++ eightRounds)) .a := by
  decide +kernel

end Setup

end Handshake

end LinkExtender
