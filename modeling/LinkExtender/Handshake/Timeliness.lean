import LinkExtender.Handshake.Joint
import LinkExtender.UdpTunnel.Connected

/-!
# Two tunnels on a timely network

A run of two tunnels as one sequence of timed steps.  Both run their maintenance
in time and every datagram arrives in less than ten seconds.  Then a side that
ticks is heard before the other side could time it out.
-/

namespace LinkExtender

namespace Handshake

open EventMachine UdpTunnel History

/-- What happens to one of the sides at some time. -/
structure TimedStep where
  time : TimePoint
  side : Side
  event : TunnelEvent
deriving DecidableEq

def eventsOf (x : Side) (past : List TimedStep) : List TunnelEvent :=
  past.filterMap fun s ↦ if s.side = x then some s.event else none

def kDeliveryBound : TimePoint := seconds 10

namespace Setup

/-- The tunnel of a side after the steps of `past`. -/
def tunnelAfter (g : Setup) (past : List TimedStep) (x : Side) : UdpTunnel :=
  run UdpTunnel.machine (create (g.peers x)) (eventsOf x past)

/-- What a step that is taken after `past` sends to the other side. -/
def sends (g : Setup) (past : List TimedStep) (s : TimedStep) : List (List UInt8) :=
  sentTo (g.address s.side.other) (emit UdpTunnel.machine (g.tunnelAfter past s.side) s.event)

/-- What a step receives from the other side. -/
def arrival (g : Setup) (s : TimedStep) : Option (List UInt8) :=
  match s.event with
  | .receive _ sender datagram =>
      if sender = g.address s.side.other then some datagram.bytes else none
  | _ => none

/-- Nobody adds or removes peers, and only gateway messages are forwarded. -/
def Undisturbed : TunnelEvent → Prop
  | .addPeer _ | .removePeer _ => False
  | .forward _ type _ _ _ => type.isControl = false
  | _ => True

instance : ∀ e, Decidable (Undisturbed e)
  | .addPeer _ | .removePeer _ => isFalse id
  | .forward _ type _ _ _ => inferInstanceAs (Decidable (type.isControl = false))
  | .receive _ _ _ | .runMaintenance _ | .acceptPeer _ | .rejectPeer _ => isTrue trivial

/-- The run has gone on until this time. -/
def Reaches (steps : List TimedStep) (t : TimePoint) : Prop := ∃ s ∈ steps, t ≤ s.time

instance (steps : List TimedStep) (t : TimePoint) : Decidable (Reaches steps t) :=
  inferInstanceAs (Decidable (∃ s ∈ steps, _))

structure Timely (g : Setup) (start : Side → TimePoint) (steps : List TimedStep) : Prop where
  ordered : (steps.map TimedStep.time).Pairwise (· ≤ ·)
  stamped : ∀ s ∈ steps, ∀ now ∈ s.event.now?, now = s.time
  started : ∀ s ∈ steps, start s.side ≤ s.time
  undisturbed : ∀ s ∈ steps, Undisturbed s.event
  /-- What is received from the other side was sent by it. -/
  genuine : ∀ past s rest, steps = past ++ s :: rest → ∀ bytes ∈ g.arrival s,
    ∃ before sent after, past = before ++ sent :: after ∧
      sent.side = s.side.other ∧ bytes ∈ g.sends before sent
  /-- What is sent while both sides run arrives in time. -/
  delivered : ∀ past sent rest, steps = past ++ sent :: rest → (∀ x, start x ≤ sent.time) →
    Reaches rest (sent.time + kDeliveryBound) → ∀ bytes ∈ g.sends past sent,
    ∃ s ∈ rest, s.side = sent.side.other ∧ bytes ∈ g.arrival s ∧
      s.time < sent.time + kDeliveryBound
  /-- Each side runs its maintenance in time. -/
  ticking : ∀ x t, (∀ y, start y ≤ t) → Reaches steps (t + kMaintenanceInterval) →
    ∃ s ∈ steps, s.side = x ∧ s.event = .runMaintenance s.time ∧ t ≤ s.time ∧
      s.time < t + kMaintenanceInterval

end Setup

/-! ## The two tunnels along a run -/

theorem eventsOf_append (x : Side) (past more : List TimedStep) :
    eventsOf x (past ++ more) = eventsOf x past ++ eventsOf x more :=
  List.filterMap_append ..

theorem mem_eventsOf {x : Side} {past : List TimedStep} {e : TunnelEvent} :
    e ∈ eventsOf x past ↔ ∃ s ∈ past, s.side = x ∧ s.event = e := by
  simp [eventsOf, List.mem_filterMap]

theorem eventsOf_split {x : Side} {past : List TimedStep} {before after : List TunnelEvent}
    {e : TunnelEvent} (h : eventsOf x past = before ++ e :: after) :
    ∃ pre s post, past = pre ++ s :: post ∧ s.side = x ∧ s.event = e ∧
      eventsOf x pre = before := by
  obtain ⟨pre, rest, rfl, hbefore, hrest⟩ := List.filterMap_eq_append_iff.mp h
  obtain ⟨skipped, s, post, rfl, hskip, hs, -⟩ := List.filterMap_eq_cons_iff.mp hrest
  have hside : s.side = x := by
    by_contra hne
    simp [hne] at hs
  refine ⟨pre ++ skipped, s, post, by simp, hside, by simpa [hside] using hs, ?_⟩
  have hnone : eventsOf x skipped = [] := List.filterMap_eq_nil_iff.mpr hskip
  rw [eventsOf_append, hnone, List.append_nil]
  exact hbefore

namespace Setup

@[simp] theorem tunnelAfter_concat_self (g : Setup) (past : List TimedStep) (s : TimedStep) :
    g.tunnelAfter (past ++ [s]) s.side =
      next UdpTunnel.machine (g.tunnelAfter past s.side) s.event := by
  simp [tunnelAfter, eventsOf]

theorem tunnelAfter_concat_other (g : Setup) (past : List TimedStep) {s : TimedStep} {x : Side}
    (h : s.side ≠ x) : g.tunnelAfter (past ++ [s]) x = g.tunnelAfter past x := by
  simp [tunnelAfter, eventsOf, h]

/-- A side keeps its peer in the table and its record is made by all of its events. -/
structure Attached (g : Setup) (past : List TimedStep) (x : Side) : Prop where
  ready : (g.tunnelAfter past x).Ready (g.address x.other)
  recorded : (g.tunnelAfter past x).heldSince (g.address x.other) =
    record (g.address x.other) (eventsOf x past)

theorem sinceAdded_of_kept {initialPeers : List UdpEndpoint} {endpoint : UdpEndpoint}
    (hmem : endpoint ∈ initialPeers) {es : List TunnelEvent}
    (hes : ∀ e ∈ es, e ≠ .removePeer endpoint) :
    sinceAdded initialPeers endpoint es = some es := by
  induction es using List.reverseRecOn with
  | nil => simp [sinceAdded, hmem]
  | append_singleton past e ih =>
      rw [sinceAdded_concat, ih fun e' he' ↦ hes e' (List.mem_append_left _ he')]
      have hne : e ≠ .removePeer endpoint := hes e (by simp)
      simp [hne]

theorem attached_of_undisturbed (g : Setup) {past : List TimedStep}
    (h : ∀ s ∈ past, Undisturbed s.event) (x : Side) : g.Attached past x := by
  have hkept : ∀ e ∈ eventsOf x past, e ≠ .removePeer (g.address x.other) := by
    rintro e he rfl
    obtain ⟨s, hs, -, hevent⟩ := mem_eventsOf.mp he
    have hundisturbed := h s hs
    rw [hevent] at hundisturbed
    exact hundisturbed
  have htracked := tracked_run (g.distinct x) (g.address x.other) (eventsOf x past)
  obtain ⟨peer, hmem, hendpoint, hrecord⟩ := htracked.present _
    (sinceAdded_of_kept (g.known x) hkept)
  refine ⟨⟨htracked.table, htracked.running, ?_⟩, ?_⟩
  · rw [← hendpoint]
    exact List.mem_map_of_mem hmem
  · rw [← hrecord, ← hendpoint]
    exact htracked.table.heldSince_of_mem hmem

theorem clocked_eventsOf {past : List TimedStep}
    (hordered : (past.map TimedStep.time).Pairwise (· ≤ ·))
    (hstamped : ∀ s ∈ past, ∀ now, s.event.now? = some now → now = s.time) (x : Side) :
    Clocked (eventsOf x past) := by
  have hevent : ∀ (s : TimedStep) now, (if s.side = x then some s.event else none).bind TunnelEvent.now? =
      some now → TunnelEvent.now? s.event = some now := by
    intro s now h
    by_cases hs : s.side = x <;> simp [hs] at h
    exact h
  rw [Clocked, eventsOf, List.filterMap_filterMap, List.pairwise_filterMap]
  rw [List.pairwise_map] at hordered
  apply hordered.imp_of_mem
  intro s s' hs hs' hle now hnow now' hnow'
  rw [hstamped s hs now (hevent s now hnow), hstamped s' hs' now' (hevent s' now' hnow')]
  exact hle

/-! ## Time steps of a timely run -/

section Timely

variable {g : Setup} {start : Side → TimePoint} {steps past rest : List TimedStep}
variable {s : TimedStep}

theorem Timely.attached (h : g.Timely start steps) (hsteps : steps = past ++ rest) (x : Side) :
    g.Attached past x := by
  apply g.attached_of_undisturbed
  intro s hs
  apply h.undisturbed s
  rw [hsteps]
  exact List.mem_append_left _ hs

theorem Timely.clocked (h : g.Timely start steps) (hsteps : steps = past ++ rest) (x : Side) :
    Clocked (eventsOf x past) := by
  have hordered := h.ordered
  rw [hsteps, List.map_append, List.pairwise_append] at hordered
  apply clocked_eventsOf hordered.1
  intro s hs
  apply h.stamped s
  rw [hsteps]
  exact List.mem_append_left _ hs

theorem Timely.le_of_mem_past (h : g.Timely start steps) (hsteps : steps = past ++ s :: rest)
    {s' : TimedStep} (hs' : s' ∈ past) : s'.time ≤ s.time := by
  have hordered := h.ordered
  rw [hsteps, List.map_append, List.pairwise_append] at hordered
  exact hordered.2.2 _ (List.mem_map_of_mem hs') _ (List.mem_map_of_mem List.mem_cons_self)

theorem Timely.le_of_mem_rest (h : g.Timely start steps) (hsteps : steps = past ++ s :: rest)
    {s' : TimedStep} (hs' : s' ∈ rest) : s.time ≤ s'.time := by
  have hordered := h.ordered
  rw [hsteps, List.map_append, List.pairwise_append, List.map_cons,
    List.pairwise_cons] at hordered
  exact hordered.2.1.1 _ (List.mem_map_of_mem hs')

/-- A step that comes before `s` in time comes before it in the run. -/
theorem Timely.mem_past_of_lt (h : g.Timely start steps) (hsteps : steps = past ++ s :: rest)
    {s' : TimedStep} (hs' : s' ∈ steps) (hlt : s'.time < s.time) : s' ∈ past := by
  rw [hsteps] at hs'
  rcases List.mem_append.mp hs' with hpast | hlater
  · exact hpast
  · rcases List.mem_cons.mp hlater with rfl | hrest
    · exact absurd hlt (lt_irrefl _)
    · exact absurd (h.le_of_mem_rest hsteps hrest) (not_le.mpr hlt)

theorem arrival_of_receivedFrom {type : TunnelMessageType}
    (htype : receivedFrom (g.address s.side.other) s.event = some type) :
    ∃ datagram message, g.arrival s = some (Datagram.bytes datagram) ∧
      messageOf datagram = some message ∧ message.type = type := by
  obtain ⟨now, datagram, hevent⟩ := exists_receive_of_receivedFrom htype
  rw [hevent] at htype
  simp only [receivedFrom, if_true, Option.map_eq_some_iff] at htype
  obtain ⟨message, hmessage, hmessageType⟩ := htype
  exact ⟨datagram, message, by simp [arrival, hevent], hmessage, hmessageType⟩

theorem receivedFrom_of_arrival {bytes : List UInt8} (h : g.arrival s = some bytes)
    {type : TunnelMessageType} (hcontrol : type.isControl = true)
    (hbytes : bytes = controlBytes type) :
    receivedFrom (g.address s.side.other) s.event = some type := by
  unfold arrival at h
  cases hevent : s.event with
  | receive now sender datagram =>
      simp only [hevent, Option.ite_none_right_eq_some] at h
      obtain ⟨hsender, hdatagram⟩ := h
      have heq : datagram = controlDatagram type := by
        cases datagram
        simp only [controlDatagram, Datagram.mk.injEq]
        exact (Option.some.inj hdatagram).trans hbytes
      obtain ⟨message, hmessage, hmessageType⟩ := exists_messageOf_controlDatagram hcontrol
      rw [heq, receivedFrom_receive hmessage, if_pos hsender, hmessageType]
  | _ => simp [hevent] at h

/-- The other side never says BYE. -/
theorem Timely.receivedFrom_ne_bye (h : g.Timely start steps)
    (hsteps : steps = past ++ s :: rest) :
    receivedFrom (g.address s.side.other) s.event ≠ some .tunnelBye := by
  intro htype
  obtain ⟨datagram, message, harrival, hmessage, hmessageType⟩ := arrival_of_receivedFrom htype
  obtain ⟨before, sent, after, rfl, -, hbytes⟩ := h.genuine past s rest hsteps _ harrival
  obtain ⟨type, tail, heq, hcases⟩ := head_of_send_mem_emit (mem_sentTo.mp hbytes)
  have htypes := type_of_messageOf hmessage heq
  rw [TunnelMessageType.ofUInt8_toUInt8, hmessageType] at htypes
  subst htypes
  have hundisturbed := h.undisturbed sent (by rw [hsteps]; simp)
  rcases hcases with hhello | hkeep | ⟨-, hremove⟩ | ⟨now, fromNode, message', toNode, hforward⟩
  · cases hhello
  · cases hkeep
  · rw [hremove] at hundisturbed
    exact hundisturbed
  · rw [hforward] at hundisturbed
    cases hundisturbed

/-- What was heard of the other side was not heard after the record. -/
theorem Timely.le_heldSince (h : g.Timely start steps) (hsteps : steps = past ++ rest)
    {x : Side} {l : TimePoint}
    (hheld : (g.tunnelAfter past x).heldSince (g.address x.other) = some l)
    {heard : TimedStep} (hmem : heard ∈ past) (hside : heard.side = x)
    (htype : receivedFrom (g.address x.other) heard.event = some .tunnelHello ∨
      receivedFrom (g.address x.other) heard.event = some .tunnelKeepalive) :
    heard.time ≤ l := by
  have hrecord := (h.attached hsteps x).recorded
  rw [hheld] at hrecord
  have hlast := ((agrees_of_clocked (h.clocked hsteps x)).held l hrecord.symm).2
  have hnow : heard.event.now? = some heard.time := by
    have hreceived : ∃ type, receivedFrom (g.address x.other) heard.event = some type := by
      rcases htype with htype | htype <;> exact ⟨_, htype⟩
    obtain ⟨type, htype⟩ := hreceived
    obtain ⟨now, datagram, hevent⟩ := exists_receive_of_receivedFrom htype
    have hs : heard ∈ steps := by
      rw [hsteps]
      exact List.mem_append_left _ hmem
    rw [hevent, ← h.stamped heard hs now (by rw [hevent]; rfl)]
    rfl
  exact hlast.latest heard.time heard.time ⟨heard.event,
    mem_eventsOf.mpr ⟨heard, hmem, hside, rfl⟩, htype, heard.time, hnow, le_rfl, le_rfl⟩

/-- A side that holds the other has heard of it after both had started. -/
theorem Timely.start_le_heldSince (h : g.Timely start steps) (hsteps : steps = past ++ rest)
    {x : Side} {l : TimePoint}
    (hheld : (g.tunnelAfter past x).heldSince (g.address x.other) = some l) (y : Side) :
    start y ≤ l := by
  have hrecord := (h.attached hsteps x).recorded
  rw [hheld] at hrecord
  have hclock := h.clocked hsteps x
  obtain ⟨⟨before, hello, after, hevents, htype, -⟩, -⟩ :=
    (agrees_of_clocked hclock).held l hrecord.symm
  obtain ⟨pre, s, post, rfl, rfl, rfl, -⟩ := eventsOf_split hevents
  have hmem : s ∈ pre ++ s :: post := by simp
  have hs : s ∈ steps := by
    rw [hsteps]
    exact List.mem_append_left _ hmem
  have hle := h.le_heldSince hsteps hheld hmem rfl (Or.inl htype)
  rcases Side.eq_or_eq_other s.side y with rfl | rfl
  · exact (h.started s hs).trans hle
  · obtain ⟨datagram, message, harrival, -, -⟩ := arrival_of_receivedFrom htype
    have hsplit : steps = pre ++ s :: (post ++ rest) := by
      rw [hsteps]
      simp
    obtain ⟨pre', sent, post', rfl, hside, -⟩ := h.genuine pre s _ hsplit _ harrival
    have hsent : sent.time ≤ s.time := h.le_of_mem_past hsplit (by simp)
    have hstart := h.started sent (by rw [hsplit]; simp)
    rw [hside] at hstart
    exact hstart.trans (hsent.trans hle)

/-- A pass that sends its peer nothing has let it go. -/
theorem exists_type_of_tick (h : g.Timely start steps) (hsteps : steps = past ++ s :: rest)
    {x : Side} (hside : s.side = x.other) (htick : s.event = .runMaintenance s.time)
    (hkept : (g.tunnelAfter past s.side).heldSince (g.address x) ≠ none →
      (g.tunnelAfter (past ++ [s]) s.side).heldSince (g.address x) ≠ none) :
    ∃ type, (type = .tunnelHello ∨ type = .tunnelKeepalive) ∧
      controlBytes type ∈ g.sends past s := by
  have hx : s.side.other = x := by rw [hside, Side.other_other]
  have hready := (h.attached hsteps s.side).ready
  rw [tunnelAfter_concat_self, htick] at hkept
  have hspec := runMaintenance_spec hready s.time
  rw [hx] at hspec
  simp only [sends, htick, hx]
  rcases hspec with ⟨-, -, hsent⟩ | ⟨l, hl, ⟨-, hnone, -⟩ | ⟨-, -, hsent⟩⟩
  · refine ⟨_, Or.inl rfl, ?_⟩
    rw [emit, UdpTunnel.machine, hsent]
    exact List.mem_singleton_self _
  · exact absurd hnone (hkept (by simp [hl]))
  · refine ⟨_, Or.inr rfl, ?_⟩
    rw [emit, UdpTunnel.machine, hsent]
    exact List.mem_singleton_self _

/-- Where no earlier step has let a peer go, a pass finds the other side heard of
within the timeout: the other side ticked between fifteen and ten seconds ago,
and what it sent has arrived. -/
theorem Timely.alive_at_tick (h : g.Timely start steps) (hsteps : steps = past ++ s :: rest)
    (hearlier : ∀ before s' after, past = before ++ s' :: after → ∀ y,
      (g.tunnelAfter before y).heldSince (g.address y.other) ≠ none →
      (g.tunnelAfter (before ++ [s']) y).heldSince (g.address y.other) ≠ none)
    {x : Side} {l : TimePoint}
    (hheld : (g.tunnelAfter past x).heldSince (g.address x.other) = some l) :
    ¬ kKeepaliveTimeout < s.time - l := by
  intro hlate
  have hstarted := fun y ↦ h.start_le_heldSince hsteps hheld y
  have hmem : s ∈ steps := by
    rw [hsteps]
    simp
  obtain ⟨tick, htickMem, htickSide, htick, hfrom, hto⟩ := h.ticking x.other (s.time - seconds 15)
    (fun y ↦ by
      have := hstarted y
      dsimp only [TimePoint, kKeepaliveTimeout, seconds] at *
      omega)
    ⟨s, hmem, by dsimp only [TimePoint, kMaintenanceInterval, seconds]; omega⟩
  have htickPast : tick ∈ past := by
    apply h.mem_past_of_lt hsteps htickMem
    dsimp only [TimePoint, kMaintenanceInterval, seconds] at *
    omega
  obtain ⟨before, after, rfl⟩ := List.append_of_mem htickPast
  have hsplit : steps = before ++ tick :: (after ++ s :: rest) := by
    rw [hsteps]
    simp
  obtain ⟨type, htype, hbytes⟩ := exists_type_of_tick h hsplit htickSide htick (by
    have hkept := hearlier before tick after rfl tick.side
    rwa [htickSide, Side.other_other, ← htickSide] at hkept)
  obtain ⟨heard, hheardMem, hheardSide, harrival, hintime⟩ := h.delivered before tick _ hsplit
    (fun y ↦ by
      have := hstarted y
      dsimp only [TimePoint, kKeepaliveTimeout, seconds] at *
      omega)
    ⟨s, by simp, by
      dsimp only [TimePoint, kMaintenanceInterval, kDeliveryBound, seconds] at *
      omega⟩ _ hbytes
  rw [htickSide, Side.other_other] at hheardSide
  have hheardPast : heard ∈ before ++ tick :: after := by
    apply h.mem_past_of_lt hsteps
    · rw [hsplit]
      simp [hheardMem]
    · dsimp only [TimePoint, kMaintenanceInterval, kDeliveryBound, seconds] at *
      omega
  have hafter : tick.time ≤ heard.time := h.le_of_mem_rest hsplit hheardMem
  have hcontrol : type.isControl = true := by rcases htype with rfl | rfl <;> rfl
  have hreceived := receivedFrom_of_arrival harrival hcontrol rfl
  rw [hheardSide] at hreceived
  have hle := h.le_heldSince hsteps hheld hheardPast hheardSide (by
    rw [hreceived]
    rcases htype with rfl | rfl
    · exact Or.inl rfl
    · exact Or.inr rfl)
  dsimp only [TimePoint, kKeepaliveTimeout, seconds] at *
  omega

theorem Timely.heldSince_concat (h : g.Timely start steps) (hsteps : steps = past ++ s :: rest)
    (hearlier : ∀ before s' after, past = before ++ s' :: after → ∀ y,
      (g.tunnelAfter before y).heldSince (g.address y.other) ≠ none →
      (g.tunnelAfter (before ++ [s']) y).heldSince (g.address y.other) ≠ none)
    {x : Side} (hheld : (g.tunnelAfter past x).heldSince (g.address x.other) ≠ none) :
    (g.tunnelAfter (past ++ [s]) x).heldSince (g.address x.other) ≠ none := by
  by_cases hside : s.side = x
  · subst hside
    obtain ⟨l, hl⟩ := Option.ne_none_iff_exists'.mp hheld
    have hsteps' : steps = (past ++ [s]) ++ rest := by
      rw [hsteps]
      simp
    have hevents : eventsOf s.side (past ++ [s]) = eventsOf s.side past ++ [s.event] := by
      simp [eventsOf]
    have hbefore := (h.attached hsteps s.side).recorded
    rw [(h.attached hsteps' s.side).recorded, hevents, record_concat, ← hbefore, hl]
    have hbye := h.receivedFrom_ne_bye hsteps
    have hmem : s ∈ steps := by
      rw [hsteps]
      simp
    cases hevent : s.event with
    | receive now sender datagram =>
        rw [hevent] at hbye
        unfold hold
        split <;> simp_all
    | runMaintenance t =>
        have ht : t = s.time := h.stamped s hmem t (by rw [hevent]; rfl)
        have halive := h.alive_at_tick hsteps hearlier hl
        simp only [hold, Option.filter_some, ht, halive, not_false_eq_true, decide_true, if_true]
        exact Option.some_ne_none l
    | _ => exact Option.some_ne_none l
  · rwa [tunnelAfter_concat_other g past hside]

theorem Timely.heldSince_step (h : g.Timely start steps) :
    ∀ n past s rest, past.length = n → steps = past ++ s :: rest → ∀ x,
      (g.tunnelAfter past x).heldSince (g.address x.other) ≠ none →
      (g.tunnelAfter (past ++ [s]) x).heldSince (g.address x.other) ≠ none := by
  intro n
  induction n using Nat.strong_induction_on with
  | _ n ih =>
      rintro past s rest rfl hsteps x hheld
      refine h.heldSince_concat hsteps ?_ hheld
      rintro before s' after rfl y hy
      apply ih before.length (by simp) before s' (after ++ s :: rest) rfl _ y hy
      rw [hsteps]
      simp

end Timely

/-- On a timely network a side that is connected stays so. -/
theorem connected_of_timely (g : Setup) (start : Side → TimePoint) {steps : List TimedStep}
    (h : g.Timely start steps) (x : Side) {past more rest : List TimedStep}
    (hsteps : steps = past ++ more ++ rest)
    (hconnected : (g.tunnelAfter past x).Connected (g.address x.other)) :
    (g.tunnelAfter (past ++ more) x).Connected (g.address x.other) := by
  have hiff : ∀ {past rest}, steps = past ++ rest →
      ((g.tunnelAfter past x).Connected (g.address x.other) ↔
        (g.tunnelAfter past x).heldSince (g.address x.other) ≠ none) := by
    intro past rest hsplit
    rw [(h.attached hsplit x).ready.table.connected_iff]
    exact Option.ne_none_iff_exists'.symm
  induction more using List.reverseRecOn generalizing rest with
  | nil => simpa using hconnected
  | append_singleton more s ih =>
      have hbefore : steps = past ++ more ++ s :: rest := by
        rw [hsteps]
        simp
      have hafter : steps = past ++ more ++ [s] ++ rest := by
        rw [hsteps]
        simp
      have hmore := (hiff hbefore).mp (ih hbefore)
      rw [← List.append_assoc, hiff hafter]
      exact h.heldSince_step _ (past ++ more) s rest rfl hbefore x hmore

/-- A side of `pair` hears the other. -/
def hear (t : ℤ) (x : Side) (type : TunnelMessageType) : TimedStep :=
  ⟨seconds t, x, .receive (seconds t) (pair.address x.other) (controlDatagram type)⟩

def maintain (t : ℤ) (x : Side) : TimedStep :=
  ⟨seconds t, x, .runMaintenance (seconds t)⟩

def meeting : List TimedStep :=
  [maintain 0 .a, hear 0 .b .tunnelHello, hear 1 .a .tunnelHello]

def company : List TimedStep :=
  [maintain 1 .b, hear 2 .b .tunnelHello, hear 2 .a .tunnelKeepalive,
    maintain 4 .a, hear 4 .b .tunnelKeepalive, maintain 5 .b, hear 5 .a .tunnelKeepalive,
    maintain 8 .a, hear 8 .b .tunnelKeepalive, maintain 9 .b, maintain 12 .a]

theorem timely_company : pair.Timely (fun _ ↦ 0) (meeting ++ company) where
  ordered := by decide +kernel
  stamped := by decide +kernel
  started := by decide +kernel
  undisturbed := by decide +kernel
  genuine := by decide +kernel
  delivered := by decide +kernel
  ticking := by
    rintro x t hstart ⟨s, hs, hle⟩
    have hfrom : 0 ≤ t := hstart .a
    have hend : ∀ s ∈ meeting ++ company, s.time ≤ seconds 12 := by decide +kernel
    have hto := hend s hs
    -- the first tick that does not come before `t`
    suffices h : ∃ k, maintain k x ∈ meeting ++ company ∧ t ≤ seconds k ∧
        seconds k < t + kMaintenanceInterval by
      obtain ⟨k, hmem, hk⟩ := h
      exact ⟨maintain k x, hmem, rfl, rfl, hk⟩
    dsimp only [TimePoint, kMaintenanceInterval, seconds] at *
    cases x with
    | a =>
        rcases Int.le_total t 0 with h | h
        · exact ⟨0, by decide +kernel, by omega, by omega⟩
        · rcases Int.le_total t 4000000000 with h | h
          · exact ⟨4, by decide +kernel, by omega, by omega⟩
          · exact ⟨8, by decide +kernel, by omega, by omega⟩
    | b =>
        rcases Int.le_total t 1000000000 with h | h
        · exact ⟨1, by decide +kernel, by omega, by omega⟩
        · rcases Int.le_total t 5000000000 with h | h
          · exact ⟨5, by decide +kernel, by omega, by omega⟩
          · exact ⟨9, by decide +kernel, by omega, by omega⟩

/-- Two sides that met at the start still hold each other twelve seconds later. -/
theorem connected_after_company :
    (pair.tunnelAfter (meeting ++ company) .a).Connected (localhost 2) :=
  connected_of_timely pair (fun _ ↦ 0) timely_company .a (List.append_nil _).symm
    (by decide +kernel)

end Setup

end Handshake

end LinkExtender
