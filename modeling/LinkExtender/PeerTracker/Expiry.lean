import LinkExtender.PeerTracker
import LinkExtender.Library.Machine

/-!
# When the tracker expires its peers

The tracker between its callers and a timer that is on time: the handler of the
pending wait runs when the clock shows the expiry time, and the clock does not pass a
wait that is pending.  The timer is never armed later than a second behind the first
deadline, so a deadline is met within a second.
-/

namespace LinkExtender

open EventMachine

inductive TrackerOp where
  | updateTimeout (nodeId : NodeId) (ttl : UInt8)
  | remove (nodeId : NodeId)
  | clear
  /-- The handler of the pending wait. -/
  | prune
  /-- The clock moves on. -/
  | wait
deriving DecidableEq

/-- What `n` was given a deadline by, or what took it away again before its time. -/
def TrackerOp.Concerns (n : NodeId) : TrackerOp → Prop
  | .updateTimeout nodeId _ | .remove nodeId => nodeId = n
  | .clear => True
  | .prune | .wait => False

structure TrackerEvent where
  now : TimePoint
  op : TrackerOp
deriving DecidableEq

structure TimedTracker where
  tracker : PeerTracker
  clock : TimePoint
deriving DecidableEq

namespace PeerTracker

def perform (t : PeerTracker) (now : TimePoint) : TrackerOp → PeerTracker
  | .updateTimeout nodeId ttl => t.updateTimeout now nodeId ttl
  | .remove nodeId => t.remove nodeId
  | .clear => t.clear
  | .prune => t.prune now
  | .wait => t

/-- The calls of `mOnExpire`. -/
def expiredBy (t : PeerTracker) (now : TimePoint) : TrackerOp → List NodeId
  | .prune => t.expired now
  | _ => []

end PeerTracker

namespace TimedTracker

open PeerTracker

def machine : Machine TimedTracker TrackerEvent (TimePoint × NodeId)
  | s, e => (⟨s.tracker.perform e.now e.op, e.now⟩,
      (s.tracker.expiredBy e.now e.op).map (Prod.mk e.now))

def start (clock : TimePoint) : TimedTracker := ⟨PeerTracker.initial, clock⟩

/-- The clock does not go back or pass a pending wait, and the handler runs at the
expiry time of the pending wait. -/
def Punctual (s : TimedTracker) (e : TrackerEvent) : Prop :=
  s.clock ≤ e.now ∧ (∀ expiry ∈ s.tracker.mTimer, e.now ≤ expiry) ∧
    (e.op = .prune → s.tracker.mTimer = some e.now)

instance (s : TimedTracker) (e : TrackerEvent) : Decidable (Punctual s e) :=
  inferInstanceAs (Decidable (_ ∧ _))

/-- When `mOnExpire` runs for `n`. -/
def expiryTimes (n : NodeId) (s : TimedTracker) (es : List TrackerEvent) : List TimePoint :=
  (outputs machine s es).filterMap (fun o ↦ if o.2 = n then some o.1 else none)

/-! ## The pending wait -/

/-- The pending wait is not over, and no deadline is more than a second before its end. -/
structure Armed (s : TimedTracker) : Prop where
  ahead : ∀ expiry ∈ s.tracker.mTimer, s.clock ≤ expiry
  covers : ∀ e ∈ s.tracker.mTimeouts.entries,
    ∃ expiry ∈ s.tracker.mTimer, expiry ≤ e.1 + seconds 1

theorem armed_start (clock : TimePoint) : (start clock).Armed :=
  ⟨nofun, nofun⟩

theorem armed_schedulePruning {t : PeerTracker} {now : TimePoint}
    (htimer : ∀ expiry ∈ t.mTimer, now ≤ expiry)
    (hentries : ∀ e ∈ t.mTimeouts.entries, now ≤ e.1 + seconds 1) :
    (⟨t.schedulePruning, now⟩ : TimedTracker).Armed := by
  cases hfront : t.mTimeouts.front with
  | none =>
      have hnil := DeadlineQueue.entries_eq_nil_of_front hfront
      have hsame : t.schedulePruning = t := by simp only [schedulePruning, hfront]
      rw [hsame]
      refine ⟨htimer, fun e he ↦ ?_⟩
      rw [hnil] at he
      cases he
  | some first =>
      have harmed : t.schedulePruning = { t with mTimer := some (first + seconds 1) } := by
        simp only [schedulePruning, hfront]
      obtain ⟨k, hfirst⟩ := DeadlineQueue.exists_mem_of_front hfront
      rw [harmed]
      refine ⟨?_, fun e he ↦ ⟨_, rfl, ?_⟩⟩
      · rintro expiry ⟨rfl⟩
        exact hentries _ hfirst
      · exact Int.add_le_add_right (DeadlineQueue.front_le hfront he) _

/-- The clock is no more than a second behind a deadline. -/
theorem Armed.now_le {s : TimedTracker} (h : s.Armed) {e : TrackerEvent} (he : Punctual s e)
    {d : TimePoint} {n : NodeId} (hmem : (d, n) ∈ s.tracker.mTimeouts.entries) :
    e.now ≤ d + seconds 1 := by
  obtain ⟨expiry, htimer, hle⟩ := h.covers _ hmem
  exact (he.2.1 expiry htimer).trans hle

theorem armed_next {s : TimedTracker} (h : s.Armed) (e : TrackerEvent) (he : Punctual s e) :
    (next machine s e).Armed := by
  obtain ⟨now, op⟩ := e
  have hold : ∀ e' ∈ s.tracker.mTimeouts.entries, now ≤ e'.1 + seconds 1 :=
    fun e' hmem ↦ h.now_le he hmem
  cases op with
  | updateTimeout nodeId ttl =>
      refine armed_schedulePruning he.2.1 ?_
      intro e' hmem
      rcases DeadlineQueue.mem_entries_set.mp hmem with rfl | ⟨hmem, -⟩
      · dsimp only [TimePoint, seconds]
        omega
      · exact hold e' hmem
  | remove nodeId =>
      exact ⟨he.2.1, fun e' hmem ↦ h.covers e' (DeadlineQueue.mem_entries_erase.mp hmem).1⟩
  | clear => exact ⟨he.2.1, nofun⟩
  | prune =>
      refine armed_schedulePruning nofun ?_
      intro e' hmem
      exact hold e' (DeadlineQueue.mem_entries_expire.mp hmem).1
  | wait => exact ⟨he.2.1, h.covers⟩

/-! ## The peers that are waited for -/

theorem mem_ids_of_mem {t : PeerTracker} {d : TimePoint} {n : NodeId}
    (h : (d, n) ∈ t.mTimeouts.entries) : n ∈ t.ids :=
  DeadlineQueue.mem_keys.mpr ⟨d, h⟩

/-- Only `updateTimeout` brings a peer in. -/
theorem not_mem_perform {t : PeerTracker} {n : NodeId} (h : n ∉ t.ids) (now : TimePoint)
    {op : TrackerOp} (hop : ∀ ttl, op ≠ .updateTimeout n ttl) :
    n ∉ (t.perform now op).ids ∧ n ∉ t.expiredBy now op := by
  cases op with
  | updateTimeout nodeId ttl =>
      have hne : n ≠ nodeId := by
        rintro rfl
        exact hop ttl rfl
      exact ⟨by simp [perform, hne, h], List.not_mem_nil⟩
  | remove nodeId => exact ⟨by simp [perform, h], List.not_mem_nil⟩
  | clear => exact ⟨List.not_mem_nil, List.not_mem_nil⟩
  | prune =>
      refine ⟨by simp [perform, h], fun hexpired ↦ h ?_⟩
      obtain ⟨d, hmem, -⟩ := DeadlineQueue.mem_due.mp hexpired
      exact mem_ids_of_mem hmem
  | wait => exact ⟨h, List.not_mem_nil⟩

/-- A peer is expired when its deadline has passed, and kept until then. -/
theorem mem_perform {t : PeerTracker} {d : TimePoint} {n : NodeId}
    (h : (d, n) ∈ t.mTimeouts.entries) (now : TimePoint) {op : TrackerOp}
    (hop : ¬ op.Concerns n) :
    (op = .prune ∧ d < now ∧ n ∈ t.expiredBy now op ∧ n ∉ (t.perform now op).ids) ∨
      ((d, n) ∈ (t.perform now op).mTimeouts.entries ∧ n ∉ t.expiredBy now op) := by
  cases op with
  | updateTimeout nodeId ttl =>
      refine Or.inr ⟨?_, List.not_mem_nil⟩
      simp only [perform, updateTimeout, mTimeouts_schedulePruning]
      exact DeadlineQueue.mem_entries_set.mpr (Or.inr ⟨h, fun heq ↦ hop heq.symm⟩)
  | remove nodeId =>
      refine Or.inr ⟨?_, List.not_mem_nil⟩
      exact DeadlineQueue.mem_entries_erase.mpr ⟨h, fun heq ↦ hop heq.symm⟩
  | clear => exact absurd trivial hop
  | prune =>
      by_cases hdue : d < now
      · have hexpired : n ∈ t.expired now := DeadlineQueue.mem_due.mpr ⟨d, h, hdue⟩
        refine Or.inl ⟨rfl, hdue, hexpired, ?_⟩
        simp [perform, hexpired]
      · have hkept : (d, n) ∈ (t.mTimeouts.expire now).entries :=
          DeadlineQueue.mem_entries_expire.mpr ⟨h, not_lt.mp hdue⟩
        refine Or.inr ⟨?_, (DeadlineQueue.mem_keys_expire.mp (DeadlineQueue.mem_keys.mpr
          ⟨d, hkept⟩)).2⟩
        simpa only [perform, prune, mTimeouts_schedulePruning] using hkept
  | wait => exact Or.inr ⟨h, List.not_mem_nil⟩

theorem mem_updateTimeout (t : PeerTracker) (u : TimePoint) (n : NodeId) (ttl : UInt8) :
    (u + seconds ttl.toNat, n) ∈ (t.perform u (.updateTimeout n ttl)).mTimeouts.entries := by
  simp only [perform, updateTimeout, mTimeouts_schedulePruning]
  exact DeadlineQueue.mem_entries_set.mpr (Or.inl rfl)

theorem not_mem_ids_next {s : TimedTracker} {e : TrackerEvent} {n : NodeId}
    (h : e.op = .remove n ∨ e.op = .clear ∨ (e.now, n) ∈ emit machine s e) :
    n ∉ (next machine s e).tracker.ids := by
  obtain ⟨now, op⟩ := e
  rcases h with rfl | rfl | hexpired
  · exact fun hmem ↦ (mem_ids_remove.mp hmem).2 rfl
  · exact List.not_mem_nil
  · obtain ⟨id, hid, heq⟩ := List.mem_map.mp hexpired
    obtain ⟨-, rfl⟩ := Prod.mk.inj heq
    cases op with
    | prune => exact fun hmem ↦ (mem_ids_prune.mp hmem).2 hid
    | _ => cases hid

theorem nodup_expiredBy (t : PeerTracker) (now : TimePoint) (op : TrackerOp) :
    (t.expiredBy now op).Nodup := by
  cases op with
  | prune => exact DeadlineQueue.nodup_due ..
  | _ => exact List.nodup_nil

/-! ## Runs -/

theorem filterMap_map_of_nodup {ids : List NodeId} (h : ids.Nodup) (n : NodeId)
    (now : TimePoint) :
    (ids.map (Prod.mk now)).filterMap (fun o ↦ if o.2 = n then some o.1 else none) =
      if n ∈ ids then [now] else [] := by
  induction ids with
  | nil => rfl
  | cons id ids ih =>
      obtain ⟨hid, hids⟩ := List.nodup_cons.mp h
      rw [List.map_cons, List.filterMap_cons, ih hids]
      by_cases hn : id = n
      · subst hn
        simp [hid]
      · simp [hn, Ne.symm hn]

theorem expiryTimes_cons (n : NodeId) (s : TimedTracker) (e : TrackerEvent)
    (es : List TrackerEvent) :
    expiryTimes n s (e :: es) =
      (if n ∈ s.tracker.expiredBy e.now e.op then [e.now] else []) ++
        expiryTimes n (next machine s e) es := by
  rw [expiryTimes, outputs_cons, List.filterMap_append, ← filterMap_map_of_nodup
    (nodup_expiredBy s.tracker e.now e.op)]
  rfl

/-- A peer that is not waited for does not expire without a new `updateTimeout`. -/
theorem expiryTimes_eq_nil {n : NodeId} {s : TimedTracker} (h : n ∉ s.tracker.ids)
    {es : List TrackerEvent} (hes : ∀ e ∈ es, ∀ ttl, e.op ≠ .updateTimeout n ttl) :
    expiryTimes n s es = [] := by
  induction es generalizing s with
  | nil => rfl
  | cons e es ih =>
      obtain ⟨hhead, htail⟩ := List.forall_mem_cons.mp hes
      obtain ⟨hids, hexpired⟩ := not_mem_perform h e.now hhead
      rw [expiryTimes_cons, if_neg hexpired, List.nil_append]
      exact ih hids htail

/-- A peer expires once, within a second of its deadline `d`, or the clock has not come
that far. -/
theorem expiryTimes_of_mem {n : NodeId} {d : TimePoint} {s : TimedTracker} (harmed : s.Armed)
    (h : (d, n) ∈ s.tracker.mTimeouts.entries) {es : List TrackerEvent}
    (hes : Along machine Punctual s es) (hrest : ∀ e ∈ es, ¬ e.op.Concerns n) :
    (∃ t, d < t ∧ t ≤ d + seconds 1 ∧ expiryTimes n s es = [t]) ∨
      expiryTimes n s es = [] ∧ ∀ e ∈ es, e.now ≤ d + seconds 1 := by
  induction es generalizing s with
  | nil => exact Or.inr ⟨rfl, nofun⟩
  | cons e es ih =>
      obtain ⟨hpunctual, hes⟩ := hes
      obtain ⟨hhead, htail⟩ := List.forall_mem_cons.mp hrest
      have hnow := harmed.now_le hpunctual h
      rw [expiryTimes_cons]
      rcases mem_perform h e.now hhead with ⟨-, hlt, hexpired, hgone⟩ | ⟨hkept, hnot⟩
      · have hnever : expiryTimes n (next machine s e) es = [] := by
          refine expiryTimes_eq_nil hgone fun e' he' ttl hop ↦ htail e' he' ?_
          rw [hop]
          rfl
        exact Or.inl ⟨e.now, hlt, hnow, by rw [if_pos hexpired, hnever]; rfl⟩
      · rw [if_neg hnot, List.nil_append, List.forall_mem_cons]
        rcases ih (armed_next harmed e hpunctual) hkept hes htail with hdone | ⟨hnone, hclock⟩
        · exact Or.inl hdone
        · exact Or.inr ⟨hnone, hnow, hclock⟩

end TimedTracker

end LinkExtender
