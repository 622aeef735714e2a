import LinkExtender.Library.Machine

/-!
# The numbers of peers

A controller has a `SessionPeerCounter` for the peers on the local networks and one for
those behind the tunnel.  Each notifies the application when the count that it saw last
has changed, and a notification has both counts, whichever counter it is from.
-/

namespace LinkExtender

open EventMachine

structure SessionPeerCounter where
  mSessionPeerCount : ℕ := 0

/-- `operator()`, with what `mCountFn` returns: whether it calls `mNotify`. -/
def SessionPeerCounter.call (counter : SessionPeerCounter) (count : ℕ) :
    SessionPeerCounter × Bool :=
  ({ counter with mSessionPeerCount := count }, decide (counter.mSessionPeerCount ≠ count))

structure PeerCounts where
  /-- What `uniqueSessionPeerCount` returns on the side of the local networks. -/
  localPeers : ℕ
  remotePeers : ℕ
  mSessionPeerCounter : SessionPeerCounter
  mRemoteSessionPeerCounter : SessionPeerCounter

inductive PeerCountEvent where
  /-- Peers come or go on the local networks. -/
  | localPeers (count : ℕ)
  | remotePeers (count : ℕ)
  /-- Link calls the counter. -/
  | countLocal
  | countRemote
deriving DecidableEq

namespace PeerCounts

def create : PeerCounts where
  localPeers := 0
  remotePeers := 0
  mSessionPeerCounter := {}
  mRemoteSessionPeerCounter := {}

/-- What `mPeerCountCallback` is given. -/
def notifyPeerCount (c : PeerCounts) : ℕ × ℕ := (c.localPeers, c.remotePeers)

def machine : Machine PeerCounts PeerCountEvent (ℕ × ℕ)
  | c, .localPeers count => ({ c with localPeers := count }, [])
  | c, .remotePeers count => ({ c with remotePeers := count }, [])
  | c, .countLocal =>
      let (counter, changed) := c.mSessionPeerCounter.call c.localPeers
      ({ c with mSessionPeerCounter := counter }, if changed then [c.notifyPeerCount] else [])
  | c, .countRemote =>
      let (counter, changed) := c.mRemoteSessionPeerCounter.call c.remotePeers
      ({ c with mRemoteSessionPeerCounter := counter },
        if changed then [c.notifyPeerCount] else [])

/-- What the application was told last. -/
def told (out : List (ℕ × ℕ)) : ℕ × ℕ := out.getLast?.getD (0, 0)

/-- Both counters have seen the counts as they are. -/
def Settled (c : PeerCounts) : Prop :=
  c.mSessionPeerCounter.mSessionPeerCount = c.localPeers ∧
    c.mRemoteSessionPeerCounter.mSessionPeerCount = c.remotePeers

/-- A count does not change again before its counter has been called. -/
def Counted (c : PeerCounts) : PeerCountEvent → Prop
  | .localPeers _ => c.mSessionPeerCounter.mSessionPeerCount = c.localPeers
  | .remotePeers _ => c.mRemoteSessionPeerCounter.mSessionPeerCount = c.remotePeers
  | .countLocal | .countRemote => True

/-- On both sides the application knows the count, or what the counter has seen of it. -/
structure Tracked (c : PeerCounts) (told : ℕ × ℕ) : Prop where
  localPeers : told.1 = c.localPeers ∨ told.1 = c.mSessionPeerCounter.mSessionPeerCount
  remotePeers : told.2 = c.remotePeers ∨ told.2 = c.mRemoteSessionPeerCounter.mSessionPeerCount

theorem Tracked.eq_of_settled {c : PeerCounts} {told : ℕ × ℕ} (h : c.Tracked told)
    (hsettled : c.Settled) : told = c.notifyPeerCount := by
  obtain ⟨hlocal, hremote⟩ := h
  rw [hsettled.1, or_self] at hlocal
  rw [hsettled.2, or_self] at hremote
  exact Prod.ext hlocal hremote

theorem told_append_singleton (out : List (ℕ × ℕ)) (p : ℕ × ℕ) : told (out ++ [p]) = p := by
  simp [told]

theorem tracked_notify {c : PeerCounts} {local' remote' : SessionPeerCounter} :
    Tracked { c with mSessionPeerCounter := local', mRemoteSessionPeerCounter := remote' }
      c.notifyPeerCount :=
  ⟨Or.inl rfl, Or.inl rfl⟩

theorem Tracked.next {c : PeerCounts} {out : List (ℕ × ℕ)} (h : c.Tracked (told out))
    {e : PeerCountEvent} (he : c.Counted e) :
    (EventMachine.next machine c e).Tracked (told (out ++ emit machine c e)) := by
  cases e with
  | localPeers count =>
      have hseen : (told out).1 = c.mSessionPeerCounter.mSessionPeerCount :=
        h.localPeers.elim (fun hcount ↦ hcount.trans he.symm) id
      simp only [EventMachine.next, emit, machine, List.append_nil]
      exact ⟨Or.inr hseen, h.remotePeers⟩
  | remotePeers count =>
      have hseen : (told out).2 = c.mRemoteSessionPeerCounter.mSessionPeerCount :=
        h.remotePeers.elim (fun hcount ↦ hcount.trans he.symm) id
      simp only [EventMachine.next, emit, machine, List.append_nil]
      exact ⟨h.localPeers, Or.inr hseen⟩
  | countLocal =>
      by_cases hseen : c.mSessionPeerCounter.mSessionPeerCount = c.localPeers
      · have hknown : (told out).1 = c.localPeers := h.localPeers.elim id (·.trans hseen)
        simp only [EventMachine.next, emit, machine, SessionPeerCounter.call, hseen, ne_eq,
          not_true, decide_false, Bool.false_eq_true, if_false, List.append_nil]
        exact ⟨Or.inl hknown, h.remotePeers⟩
      · simp only [EventMachine.next, emit, machine, SessionPeerCounter.call, hseen, ne_eq,
          not_false_eq_true, decide_true, if_true, told_append_singleton]
        exact tracked_notify
  | countRemote =>
      by_cases hseen : c.mRemoteSessionPeerCounter.mSessionPeerCount = c.remotePeers
      · have hknown : (told out).2 = c.remotePeers := h.remotePeers.elim id (·.trans hseen)
        simp only [EventMachine.next, emit, machine, SessionPeerCounter.call, hseen, ne_eq,
          not_true, decide_false, Bool.false_eq_true, if_false, List.append_nil]
        exact ⟨h.localPeers, Or.inl hknown⟩
      · simp only [EventMachine.next, emit, machine, SessionPeerCounter.call, hseen, ne_eq,
          not_false_eq_true, decide_true, if_true, told_append_singleton]
        exact tracked_notify

theorem tracked_run {es : List PeerCountEvent} (h : Along machine Counted create es) :
    (run machine create es).Tracked (told (outputs machine create es)) := by
  induction es using List.reverseRecOn with
  | nil => exact ⟨Or.inl rfl, Or.inl rfl⟩
  | append_singleton es e ih =>
      obtain ⟨hes, he⟩ := (along_concat ..).mp h
      rw [run_concat, outputs_concat]
      exact (ih hes).next he

/-- Once both counters have seen the counts, the application has last been told these, as
long as no count changes twice without its counter being called in between. -/
theorem told_eq_notifyPeerCount {es : List PeerCountEvent} (h : Along machine Counted create es)
    (hsettled : (run machine create es).Settled) :
    told (outputs machine create es) = (run machine create es).notifyPeerCount :=
  (tracked_run h).eq_of_settled hsettled

instance : ∀ c e, Decidable (Counted c e)
  | _, .localPeers _ | _, .remotePeers _ => inferInstanceAs (Decidable (_ = _))
  | _, .countLocal | _, .countRemote => isTrue trivial

instance (c : PeerCounts) : Decidable c.Settled := inferInstanceAs (Decidable (_ ∧ _))

/-- One peer comes on either side; the notification of the first counter has both. -/
theorem told_eq_notifyPeerCount_both :
    let es := [.localPeers 1, .remotePeers 1, .countRemote, .countLocal]
    told (outputs machine create es) = (run machine create es).notifyPeerCount :=
  told_eq_notifyPeerCount (by decide) (by decide)

/-- A peer that has gone again before its counter is called is not taken back. -/
example :
    let es := [.localPeers 1, .remotePeers 1, .countRemote, .localPeers 0, .countLocal]
    (run machine create es).Settled ∧ told (outputs machine create es) = (1, 1) := by
  decide

end PeerCounts

end LinkExtender
