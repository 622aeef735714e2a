import LinkExtender.Wire
import LinkExtender.Library.DeadlineQueue

/-!
# Peer timeouts

`TunnelGateway::PeerTracker`.  The tracker keeps its timeouts sorted and arms one
timer a second behind the first of them.  The callback `mOnExpire` does not come
back to the tracker, so `prune` returns the expired nodes for the caller to treat.
-/

namespace LinkExtender

structure PeerTracker where
  mTimeouts : DeadlineQueue TimePoint NodeId
  /-- The expiry time of the pending wait. -/
  mTimer : Option TimePoint
deriving DecidableEq

namespace PeerTracker

def initial : PeerTracker := ⟨DeadlineQueue.empty, none⟩

def ids (t : PeerTracker) : List NodeId := t.mTimeouts.keys

def schedulePruning (t : PeerTracker) : PeerTracker :=
  match t.mTimeouts.front with
  | some first => { t with mTimer := some (first + seconds 1) }
  | none => t

def updateTimeout (t : PeerTracker) (now : TimePoint) (nodeId : NodeId) (ttl : UInt8) :
    PeerTracker :=
  { t with mTimeouts := t.mTimeouts.set (now + seconds ttl.toNat) nodeId }.schedulePruning

/-- The timer keeps running, also when nothing is left to wait for. -/
def remove (t : PeerTracker) (nodeId : NodeId) : PeerTracker :=
  { t with mTimeouts := t.mTimeouts.erase nodeId }

def clear (t : PeerTracker) : PeerTracker := { t with mTimeouts := DeadlineQueue.empty }

/-- The nodes that `prune` reports, in order. -/
def expired (t : PeerTracker) (now : TimePoint) : List NodeId := t.mTimeouts.due now

def prune (t : PeerTracker) (now : TimePoint) : PeerTracker :=
  { mTimeouts := t.mTimeouts.expire now, mTimer := none : PeerTracker }.schedulePruning

def isDue (t : PeerTracker) (now : TimePoint) : Bool :=
  t.mTimer.any (fun expiry ↦ expiry ≤ now)

@[simp] theorem ids_initial : initial.ids = [] := rfl

@[simp] theorem mTimeouts_schedulePruning (t : PeerTracker) :
    t.schedulePruning.mTimeouts = t.mTimeouts := by
  unfold schedulePruning
  cases t.mTimeouts.front <;> rfl

@[simp] theorem mem_ids_updateTimeout {t : PeerTracker} {now : TimePoint}
    {nodeId node : NodeId} {ttl : UInt8} :
    node ∈ (t.updateTimeout now nodeId ttl).ids ↔ node = nodeId ∨ node ∈ t.ids := by
  simp [ids, updateTimeout]

@[simp] theorem mem_ids_remove {t : PeerTracker} {nodeId node : NodeId} :
    node ∈ (t.remove nodeId).ids ↔ node ∈ t.ids ∧ node ≠ nodeId := by
  simp [ids, remove]

@[simp] theorem mem_ids_prune {t : PeerTracker} {now : TimePoint} {node : NodeId} :
    node ∈ (t.prune now).ids ↔ node ∈ t.ids ∧ node ∉ t.expired now := by
  simp [ids, prune, expired, DeadlineQueue.mem_keys_expire]

end PeerTracker

end LinkExtender
