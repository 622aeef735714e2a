import LinkExtender.Library.Trace
import LinkExtender.PeerTracker.Expiry
import LinkExtender.TunnelGateway.Steps

/-!
# What the observers are told

Every change of a tracker goes with a notification to its observer: a peer is entered
with `sawPeer` and taken out with `peerLeft` or `peerTimedOut`.  Only `stop_listening`
empties the trackers in silence.
-/

namespace LinkExtender

open EventMachine

def PeerNotification.node : PeerNotification → NodeId
  | .sawPeer state => state.ident
  | .peerLeft node | .peerTimedOut node => node

/-- The last notification about a node. -/
def lastAbout (node : NodeId) (notes : List PeerNotification) : Option PeerNotification :=
  (notes.filter (fun note ↦ note.node = node)).getLast?

/-- A node that times out was seen last. -/
def SeenLast (past : List PeerNotification) (note : PeerNotification) : Prop :=
  ∀ node, note = .peerTimedOut node → ∃ state, lastAbout node past = some (.sawPeer state)

theorem lastAbout_concat (node : NodeId) (notes : List PeerNotification)
    (note : PeerNotification) :
    lastAbout node (notes ++ [note]) =
      if note.node = node then some note else lastAbout node notes := by
  unfold lastAbout
  rw [List.filter_append]
  by_cases h : note.node = node
  · simp [h]
  · simp [h]

/-! ## A tracker and its observer -/

/-- A step of a tracker, with the notifications that go with it. -/
inductive Reports (t : PeerTracker) : PeerTracker → List PeerNotification → Prop
  | quiet {t' : PeerTracker} (h : t'.ids ⊆ t.ids) : Reports t t' []
  | saw (now : TimePoint) (ttl : UInt8) (state : PeerState) :
      Reports t (t.updateTimeout now state.ident ttl) [.sawPeer state]
  | left (node : NodeId) : Reports t (t.remove node) [.peerLeft node]
  | timedOut (now : TimePoint) :
      Reports t (t.prune now) ((t.expired now).map .peerTimedOut)

/-- All nodes that a tracker waits for were seen last, and so were those that have timed
out when they did. -/
structure Vouched (t : PeerTracker) (notes : List PeerNotification) : Prop where
  waiting : ∀ node ∈ t.ids, ∃ state, lastAbout node notes = some (.sawPeer state)
  timedOut : History.Each SeenLast notes

theorem seenLast_timedOut {notes : List PeerNotification} (hnotes : History.Each SeenLast notes)
    {ids : List NodeId} (hnodup : ids.Nodup)
    (hids : ∀ node ∈ ids, ∃ state, lastAbout node notes = some (.sawPeer state)) :
    History.Each SeenLast (notes ++ ids.map .peerTimedOut) ∧
      ∀ node ∉ ids, lastAbout node (notes ++ ids.map .peerTimedOut) = lastAbout node notes := by
  induction ids generalizing notes with
  | nil => simpa using hnotes
  | cons id ids ih =>
      obtain ⟨hid, hnodup⟩ := List.nodup_cons.mp hnodup
      obtain ⟨hseen, hrest⟩ := List.forall_mem_cons.mp hids
      have hother : ∀ node ≠ id,
          lastAbout node (notes ++ [.peerTimedOut id]) = lastAbout node notes := by
        intro node hne
        rw [lastAbout_concat]
        exact if_neg hne.symm
      rw [List.map_cons, List.append_cons]
      obtain ⟨heach, hlast⟩ := @ih (notes ++ [.peerTimedOut id])
        (History.each_concat.mpr ⟨hnotes, by rintro node ⟨rfl⟩; exact hseen⟩) hnodup (by
          intro node hnode
          rw [hother node (fun heq ↦ hid (heq ▸ hnode))]
          exact hrest node hnode)
      refine ⟨heach, fun node hnode ↦ ?_⟩
      obtain ⟨hne, hnot⟩ := not_or.mp (mt List.mem_cons.mpr hnode)
      rw [hlast node hnot, hother node hne]

theorem Vouched.of_reports {t t' : PeerTracker} {notes new : List PeerNotification}
    (h : Vouched t notes) (hreports : Reports t t' new) : Vouched t' (notes ++ new) := by
  cases hreports with
  | quiet hids =>
      rw [List.append_nil]
      exact ⟨fun node hnode ↦ h.waiting node (hids hnode), h.timedOut⟩
  | saw now ttl state =>
      refine ⟨fun node hnode ↦ ?_, History.each_concat.mpr ⟨h.timedOut, nofun⟩⟩
      rw [lastAbout_concat]
      split
      · exact ⟨state, rfl⟩
      · next hne =>
          refine h.waiting node ((PeerTracker.mem_ids_updateTimeout.mp hnode).resolve_left ?_)
          exact fun heq ↦ hne heq.symm
  | left node' =>
      refine ⟨fun node hnode ↦ ?_, History.each_concat.mpr ⟨h.timedOut, nofun⟩⟩
      obtain ⟨hmem, hne⟩ := PeerTracker.mem_ids_remove.mp hnode
      rw [lastAbout_concat, if_neg (fun heq ↦ hne heq.symm)]
      exact h.waiting node hmem
  | timedOut now =>
      obtain ⟨heach, hlast⟩ := seenLast_timedOut h.timedOut
        (DeadlineQueue.nodup_due t.mTimeouts now) (by
          intro node hnode
          obtain ⟨d, hmem, -⟩ := DeadlineQueue.mem_due.mp hnode
          exact h.waiting node (DeadlineQueue.mem_keys.mpr ⟨d, hmem⟩))
      refine ⟨fun node hnode ↦ ?_, heach⟩
      obtain ⟨hmem, hnot⟩ := PeerTracker.mem_ids_prune.mp hnode
      obtain ⟨state, hseen⟩ := h.waiting node hmem
      exact ⟨state, (hlast node hnot).trans hseen⟩

/-! ## The two observers of a gateway -/

namespace TunnelGateway

variable {link : LinkLibrary} {g : TunnelGateway}

def localNotes (out : List GatewayOutput) : List PeerNotification :=
  out.filterMap fun
    | .localObserver note => some note
    | _ => none

def remoteNotes (out : List GatewayOutput) : List PeerNotification :=
  out.filterMap fun
    | .remoteObserver note => some note
    | _ => none

@[simp] theorem localNotes_append (xs ys : List GatewayOutput) :
    localNotes (xs ++ ys) = localNotes xs ++ localNotes ys :=
  List.filterMap_append

@[simp] theorem remoteNotes_append (xs ys : List GatewayOutput) :
    remoteNotes (xs ++ ys) = remoteNotes xs ++ remoteNotes ys :=
  List.filterMap_append

theorem notes_sendUdpMessage (io : LocalIo) (routing : RoutingResult) (buffer : MessageBuffer)
    (size : ℕ) : localNotes (sendUdpMessage io routing buffer size) = [] ∧
      remoteNotes (sendUdpMessage io routing buffer size) = [] := by
  unfold sendUdpMessage
  split <;> exact ⟨rfl, rfl⟩

/-- What both trackers of a gateway do in a step is reported to their observers. -/
structure Reported (g g' : TunnelGateway) (out : List GatewayOutput) : Prop where
  localSide : Reports g.mLocalTracker g'.mLocalTracker (localNotes out)
  remoteSide : Reports g.mRemoteTracker g'.mRemoteTracker (remoteNotes out)

theorem reported_of_quiet {g' : TunnelGateway} {out : List GatewayOutput}
    (hlocal : g'.mLocalTracker = g.mLocalTracker) (hremote : g'.mRemoteTracker = g.mRemoteTracker)
    (hlocalNotes : localNotes out = []) (hremoteNotes : remoteNotes out = []) :
    Reported g g' out := by
  refine ⟨?_, ?_⟩
  · rw [hlocal, hlocalNotes]
    exact .quiet (List.Subset.refl _)
  · rw [hremote, hremoteNotes]
    exact .quiet (List.Subset.refl _)

theorem reported_observe (now : TimePoint) (message : LocalMessage) :
    Reported g (g.observe link now message).1 (g.observe link now message).2 := by
  have hstate : Reported g
      (g.observeRemotePeerState link now message.fromNode
        (message.buffer.bytes.take message.size)).1
      (g.observeRemotePeerState link now message.fromNode
        (message.buffer.bytes.take message.size)).2 := by
    unfold observeRemotePeerState
    dsimp only
    split
    · exact ⟨.quiet (List.Subset.refl _), .saw ..⟩
    · exact reported_of_quiet rfl rfl rfl rfl
  unfold observe
  cases message.type with
  | broadcast | unicast => exact hstate
  | byebye => exact ⟨.quiet (List.Subset.refl _), .left ..⟩
  | _ => exact reported_of_quiet rfl rfl rfl rfl

theorem reported_lan (g : TunnelGateway) (now : TimePoint) (e : LanEvent) :
    Reported g (next (machine link) g (.lan now e)) (emit (machine link) g (.lan now e)) := by
  rw [next_lan, emit_lan]
  have hreading := lanReading link g now e
  generalize g.lanAction link now e = a at hreading ⊢
  cases hreading with
  | ignored | minted | relayed => exact reported_of_quiet rfl rfl rfl rfl
  | @announced _ sender datagram toNode header payload state hmessage hheader hforeign hstate =>
      have hsaw := @Reports.saw g.mLocalTracker now header.ttl state
      rw [link.ident_fromPayload hstate] at hsaw
      exact ⟨hsaw, .quiet (List.Subset.refl _)⟩
  | left => exact ⟨.left .., .quiet (List.Subset.refl _)⟩
  | localDue hdue =>
      have hremote := (@onLocalPeerTimedOut_remote link g (g.mLocalTracker.expired now)).1
      refine ⟨?_, ?_⟩
      · have htimedOut := @Reports.timedOut g.mLocalTracker now
        simpa [perform, pruneLocal, localNotes, List.filterMap_map, Function.comp_def] using
          htimedOut
      · have hquiet := @Reports.quiet g.mRemoteTracker _ (List.Subset.refl _)
        simpa [perform, pruneLocal, hremote, remoteNotes, List.filterMap_map,
          Function.comp_def] using hquiet
  | remoteDue hdue =>
      have hlocal := (pruneRemote_local g now).1
      refine ⟨?_, ?_⟩
      · have hquiet := @Reports.quiet g.mLocalTracker _ (List.Subset.refl _)
        rw [perform, hlocal]
        simpa [pruneRemote, localNotes, List.filterMap_map, Function.comp_def] using hquiet
      · have htimedOut := @Reports.timedOut g.mRemoteTracker now
        simpa [perform, pruneRemote, remoteNotes, List.filterMap_map, Function.comp_def] using
          htimedOut

theorem reported_tunnel (g : TunnelGateway) (io : LocalIo) (message : LocalMessage) :
    Reported g (g.forwardMessageLocally link io message).1
      (g.forwardMessageLocally link io message).2.2 := by
  have hdelivery := delivery link g io message
  generalize (g.forwardMessageLocally link io message).1 = g' at hdelivery ⊢
  generalize (g.forwardMessageLocally link io message).2.1 = buffer at hdelivery
  generalize (g.forwardMessageLocally link io message).2.2 = out at hdelivery ⊢
  cases hdelivery with
  | @ping dest =>
      cases g.localEndpoint dest with
      | none => exact reported_of_quiet rfl rfl rfl rfl
      | some e =>
          obtain ⟨hlocal, hremote⟩ := notes_sendUdpMessage ..
          exact reported_of_quiet rfl rfl hlocal hremote
  | @delivered dest e s =>
      have hobserve := @reported_observe link (g.withNodeSurrogate message.fromNode s) io.now
        message
      obtain ⟨hlocal, hremote⟩ := notes_sendUdpMessage ..
      refine ⟨?_, ?_⟩
      · rw [localNotes_append, hlocal, List.append_nil]
        exact hobserve.localSide
      · rw [remoteNotes_append, hremote, List.append_nil]
        exact hobserve.remoteSide
  | _ => exact reported_of_quiet rfl rfl rfl rfl

end TunnelGateway

/-! ## A gateway that may be stopped -/

inductive LifeEvent where
  | gateway (e : GatewayEvent)
  | stopListening
deriving DecidableEq

namespace TunnelGateway

variable {link : LinkLibrary} {g : TunnelGateway}

def lifetime (link : LinkLibrary) : Machine TunnelGateway LifeEvent GatewayOutput
  | g, .gateway e => machine link g e
  | g, .stopListening => (g.stopListening, [])

theorem reported_next (g : TunnelGateway) (e : LifeEvent) :
    Reported g (next (lifetime link) g e) (emit (lifetime link) g e) := by
  cases e with
  | gateway e =>
      cases e with
      | lan now e => exact reported_lan g now e
      | tunnel io message => exact reported_tunnel g io message
  | stopListening => exact ⟨.quiet nofun, .quiet nofun⟩

/-- Whatever happens to a gateway, a peer that times out was seen last. -/
theorem vouched_run (link : LinkLibrary) (interfaceAddress : IpAddress) (es : List LifeEvent) :
    Vouched (run (lifetime link) (create interfaceAddress) es).mLocalTracker
        (localNotes (outputs (lifetime link) (create interfaceAddress) es)) ∧
      Vouched (run (lifetime link) (create interfaceAddress) es).mRemoteTracker
        (remoteNotes (outputs (lifetime link) (create interfaceAddress) es)) := by
  refine history_induction (lifetime link) (create interfaceAddress)
    (I := fun past g ↦
      Vouched g.mLocalTracker
          (localNotes (outputs (lifetime link) (create interfaceAddress) past)) ∧
        Vouched g.mRemoteTracker
          (remoteNotes (outputs (lifetime link) (create interfaceAddress) past))) ?_ ?_ es
  · exact ⟨⟨nofun, History.each_nil _⟩, ⟨nofun, History.each_nil _⟩⟩
  · rintro past e ⟨hlocal, hremote⟩
    rw [outputs_concat, localNotes_append, remoteNotes_append]
    have hreported := @reported_next link (run (lifetime link) (create interfaceAddress) past) e
    exact ⟨hlocal.of_reports hreported.localSide, hremote.of_reports hreported.remoteSide⟩

end TunnelGateway

namespace TimedTracker

open TunnelGateway

/-! ## Once and on time -/

/-- A tracker on a punctual timer: its timeouts are in order, a peer that is updated and
then left alone expires once within a second of its deadline (or the clock has not come
that far), and a peer that was removed, cleared or expired does not expire before it is
updated again.  A gateway that reports a timeout has reported the peer as seen last. -/
theorem expires_once_on_time (clock : TimePoint) (es : List TrackerEvent)
    (hes : Along machine Punctual (start clock) es)
    (link : LinkLibrary) (interfaceAddress : IpAddress) (life : List LifeEvent) :
    Throughout machine
        (fun s ↦ s.tracker.mTimeouts.entries.Pairwise (fun a b ↦ a.1 ≤ b.1) ∧
          (s.tracker.mTimeouts.entries.map Prod.snd).Nodup) (start clock) es ∧
    (∀ past u n ttl rest, es = past ++ ⟨u, .updateTimeout n ttl⟩ :: rest →
      (∀ e ∈ rest, ¬ e.op.Concerns n) →
      (∃ t, u + seconds ttl.toNat < t ∧ t ≤ u + seconds ttl.toNat + seconds 1 ∧
        expiryTimes n (run machine (start clock) (past ++ [⟨u, .updateTimeout n ttl⟩])) rest =
          [t]) ∨
      expiryTimes n (run machine (start clock) (past ++ [⟨u, .updateTimeout n ttl⟩])) rest = [] ∧
        ∀ e ∈ rest, e.now ≤ u + seconds ttl.toNat + seconds 1) ∧
    (∀ past e n rest, es = past ++ e :: rest →
      (e.op = .remove n ∨ e.op = .clear ∨
        (e.now, n) ∈ emit machine (run machine (start clock) past) e) →
      (∀ e' ∈ rest, ∀ ttl, e'.op ≠ .updateTimeout n ttl) →
      expiryTimes n (run machine (start clock) (past ++ [e])) rest = []) ∧
    History.Each SeenLast
      (localNotes (outputs (lifetime link) (create interfaceAddress) life)) ∧
    History.Each SeenLast
      (remoteNotes (outputs (lifetime link) (create interfaceAddress) life)) := by
  obtain ⟨hlocal, hremote⟩ := vouched_run link interfaceAddress life
  refine ⟨fun past _ ↦ ⟨DeadlineQueue.sorted _, DeadlineQueue.nodup _⟩, ?_, ?_,
    hlocal.timedOut, hremote.timedOut⟩
  · rintro past u n ttl rest rfl hrest
    rw [List.append_cons, along_append] at hes
    have harmed := run_invariant_along machine (I := Armed) (fun _ e h he ↦ armed_next h e he)
      (armed_start clock) hes.1
    refine expiryTimes_of_mem harmed ?_ hes.2 hrest
    rw [run_concat]
    exact mem_updateTimeout ..
  · rintro past e n rest rfl hgone hrest
    refine expiryTimes_eq_nil ?_ hrest
    rw [run_concat]
    exact not_mem_ids_next hgone

/-- The zero node is seen at 0 and at 2 s with a time to live of 5 s; the first wait, until
6 s, has been replaced by one until 8 s. -/
def seenTwice : List TrackerEvent :=
  [⟨0, .updateTimeout default 5⟩, ⟨seconds 2, .updateTimeout default 5⟩,
    ⟨seconds 8, .prune⟩, ⟨seconds 9, .wait⟩]

theorem expires_once_on_time_seenTwice :
    ∃ t, seconds 7 < t ∧ t ≤ seconds 8 ∧
      expiryTimes default (run machine (start 0) (seenTwice.take 2)) (seenTwice.drop 2) =
        [t] := by
  have hpunctual : Along machine Punctual (start 0) seenTwice := by decide +kernel
  obtain ⟨-, honce, -⟩ := expires_once_on_time 0 seenTwice hpunctual .version1
    TunnelGateway.kLocalIfAddr []
  rcases honce [⟨0, .updateTimeout default 5⟩] (seconds 2) default 5
    [⟨seconds 8, .prune⟩, ⟨seconds 9, .wait⟩] rfl (by simp [TrackerOp.Concerns]) with
    hdone | ⟨-, hclock⟩
  · exact hdone
  · exact absurd (hclock ⟨seconds 9, .wait⟩ (by simp)) (by decide)

end TimedTracker

end LinkExtender
