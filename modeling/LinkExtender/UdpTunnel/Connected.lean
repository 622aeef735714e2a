import LinkExtender.UdpTunnel.Session
import LinkExtender.Library.History

/-!
# When a peer is connected

The connection state of a peer is a matter of what was received from it and
when the maintenance passes ran since it was last added: a HELLO connects it,
and a BYE or a pass that has not heard of it for `kKeepaliveTimeout` ends that.
-/

namespace LinkExtender

/-- The clock reading that an event makes. -/
def TunnelEvent.now? : TunnelEvent → Option TimePoint
  | .receive now _ _ => some now
  | .runMaintenance now => some now
  | .forward now _ _ _ _ => some now
  | _ => none

namespace UdpTunnel

open EventMachine LastIndex History

/-- The clock never went back. -/
def Clocked (es : List TunnelEvent) : Prop :=
  (es.filterMap TunnelEvent.now?).Pairwise (· ≤ ·)

instance (es : List TunnelEvent) : Decidable (Clocked es) :=
  inferInstanceAs (Decidable (List.Pairwise _ _))

/-- The table has a connected entry of the endpoint. -/
def Connected (t : UdpTunnel) (endpoint : UdpEndpoint) : Prop :=
  ∃ peer ∈ t.mPeers, peer.endpoint = endpoint ∧ peer.state = .connected

instance (t : UdpTunnel) (endpoint : UdpEndpoint) : Decidable (t.Connected endpoint) :=
  inferInstanceAs (Decidable (∃ peer ∈ t.mPeers, _))

/-- The type of the message that an event receives from the endpoint. -/
def receivedFrom (endpoint : UdpEndpoint) : TunnelEvent → Option TunnelMessageType
  | .receive _ sender datagram =>
      if sender = endpoint then (messageOf datagram).map LocalMessage.type else none
  | _ => none

/-- A HELLO or KEEPALIVE of the endpoint was processed between `earliest` and `latest`. -/
def HeardBetween (endpoint : UdpEndpoint) (earliest latest : TimePoint)
    (past : List TunnelEvent) : Prop :=
  ∃ e ∈ past, (receivedFrom endpoint e = some .tunnelHello ∨
      receivedFrom endpoint e = some .tunnelKeepalive) ∧
    ∃ k, e.now? = some k ∧ earliest ≤ k ∧ k ≤ latest

/-- A HELLO of the endpoint was processed, after it no BYE, and every later
pass heard of the endpoint within the timeout. -/
def Held (endpoint : UdpEndpoint) (past : List TunnelEvent) : Prop :=
  Since (fun _ e ↦ receivedFrom endpoint e = some .tunnelHello)
    (fun before e ↦ receivedFrom endpoint e ≠ some .tunnelBye ∧
      ∀ t, e = .runMaintenance t → HeardBetween endpoint (t - kKeepaliveTimeout) t before)
    past

/-- The events since the endpoint was last added; none while it is no peer. -/
def sinceAdded (initialPeers : List UdpEndpoint) (endpoint : UdpEndpoint)
    (es : List TunnelEvent) : Option (List TunnelEvent) :=
  es.foldl (fun since e ↦
    match since with
    | none => if e = .addPeer endpoint ∨ e = .acceptPeer endpoint then some [] else none
    | some past => if e = .removePeer endpoint then none else some (past ++ [e]))
    (if endpoint ∈ initialPeers then some [] else none)

/-! ## The record of one peer -/

theorem PeerTable.peer?_eq_some {t : UdpTunnel} (h : t.PeerTable) {endpoint : UdpEndpoint}
    {idx : ℕ} {peer : PeerEntry} :
    t.peer? endpoint = some (idx, peer) ↔
      t.mPeers[idx]? = some peer ∧ peer.endpoint = endpoint := by
  rw [UdpTunnel.peer?_eq_some, h.index, getElem?_endpoints]
  constructor
  · rintro ⟨hendpoint, hget⟩
    rw [hget] at hendpoint
    exact ⟨hget, Option.some.inj hendpoint⟩
  · rintro ⟨hget, rfl⟩
    exact ⟨by rw [hget]; rfl, hget⟩

theorem PeerTable.heldSince_eq_some {t : UdpTunnel} (h : t.PeerTable)
    {endpoint : UdpEndpoint} {l : TimePoint} :
    t.heldSince endpoint = some l ↔
      ∃ peer ∈ t.mPeers, peer.endpoint = endpoint ∧ peer.state = .connected ∧
        peer.lastSeen = l := by
  constructor
  · intro hheld
    cases hpeer : t.peer? endpoint with
    | none => simp [heldSince, hpeer] at hheld
    | some found =>
        obtain ⟨idx, peer⟩ := found
        obtain ⟨hget, hendpoint⟩ := h.peer?_eq_some.mp hpeer
        rw [heldSince_of_peer? hpeer] at hheld
        split at hheld
        · exact ⟨peer, List.mem_of_getElem? hget, hendpoint, ‹_›, Option.some.inj hheld⟩
        · cases hheld
  · rintro ⟨peer, hmem, hendpoint, hstate, rfl⟩
    obtain ⟨idx, hget⟩ := List.getElem?_of_mem hmem
    rw [heldSince_of_peer? (h.peer?_eq_some.mpr ⟨hget, hendpoint⟩), if_pos hstate]

theorem PeerTable.connected_iff {t : UdpTunnel} (h : t.PeerTable) {endpoint : UdpEndpoint} :
    t.Connected endpoint ↔ ∃ l, t.heldSince endpoint = some l := by
  simp only [h.heldSince_eq_some, Connected]
  constructor
  · rintro ⟨peer, hmem, hendpoint, hstate⟩
    exact ⟨_, peer, hmem, hendpoint, hstate, rfl⟩
  · rintro ⟨_, peer, hmem, hendpoint, hstate, -⟩
    exact ⟨peer, hmem, hendpoint, hstate⟩

/-- The time at which an entry was last heard of, while it is connected. -/
def PeerEntry.heldSince (peer : PeerEntry) : Option TimePoint :=
  if peer.state = .connected then some peer.lastSeen else none

/-- What an event makes of the record of a peer. -/
def hold (endpoint : UdpEndpoint) (since : Option TimePoint) (e : TunnelEvent) :
    Option TimePoint :=
  match e, receivedFrom endpoint e with
  | .receive now _ _, some .tunnelHello => some now
  | .receive now _ _, some .tunnelKeepalive => since.map (fun _ ↦ now)
  | .receive _ _ _, some .tunnelBye => none
  | .runMaintenance now, _ => since.filter (fun l ↦ ¬ kKeepaliveTimeout < now - l)
  | _, _ => since

theorem PeerTable.heldSince_of_mem {t : UdpTunnel} (h : t.PeerTable) {peer : PeerEntry}
    (hmem : peer ∈ t.mPeers) : t.heldSince peer.endpoint = PeerEntry.heldSince peer := by
  obtain ⟨idx, hget⟩ := List.getElem?_of_mem hmem
  exact heldSince_of_peer? (h.peer?_eq_some.mpr ⟨hget, rfl⟩)

theorem receivedFrom_receive {endpoint : UdpEndpoint} {now : TimePoint}
    {sender : UdpEndpoint} {datagram : Datagram} {message : LocalMessage}
    (hmessage : messageOf datagram = some message) :
    receivedFrom endpoint (.receive now sender datagram) =
      if sender = endpoint then some message.type else none := by
  simp [receivedFrom, hmessage]

theorem mem_setPeer_of_ne {t : UdpTunnel} {idx : ℕ} {old new peer : PeerEntry}
    (hold : t.mPeers[idx]? = some old) (hmem : peer ∈ t.mPeers)
    (hne : peer.endpoint ≠ old.endpoint) : peer ∈ (t.setPeer idx new).mPeers := by
  obtain ⟨j, hget⟩ := List.getElem?_of_mem hmem
  have hj : idx ≠ j := by
    rintro rfl
    apply hne
    rw [Option.some.inj (hget.symm.trans hold)]
  apply List.mem_of_getElem?
  rw [setPeer, List.getElem?_set_ne hj]
  exact hget

theorem mem_setPeer_self {t : UdpTunnel} {idx : ℕ} {old new : PeerEntry}
    (hold : t.mPeers[idx]? = some old) : new ∈ (t.setPeer idx new).mPeers := by
  apply List.mem_of_getElem?
  rw [setPeer, List.getElem?_set_self (List.getElem?_eq_some_iff.mp hold).1]

/-- A table has an entry of the endpoint with this record. -/
def Records (peers : List PeerEntry) (endpoint : UdpEndpoint) (since : Option TimePoint) :
    Prop :=
  ∃ peer ∈ peers, peer.endpoint = endpoint ∧ PeerEntry.heldSince peer = since

/-- A received message changes the entry that the index finds for its sender. -/
theorem records_setPeer {t : UdpTunnel} (h : t.PeerTable) {peer : PeerEntry}
    (hmem : peer ∈ t.mPeers) {sender : UdpEndpoint} {idx : ℕ} {old new : PeerEntry}
    (hold : t.peer? sender = some (idx, old)) (hnew : new.endpoint = old.endpoint)
    {since : Option TimePoint}
    (hself : sender = peer.endpoint → old = peer → PeerEntry.heldSince new = since)
    (hother : sender ≠ peer.endpoint → PeerEntry.heldSince peer = since) :
    Records (t.setPeer idx new).mPeers peer.endpoint since := by
  obtain ⟨hget, rfl⟩ := h.peer?_eq_some.mp hold
  by_cases hpeer : peer.endpoint = old.endpoint
  · obtain ⟨j, hj⟩ := List.getElem?_of_mem hmem
    have hsame := (h.peer?_eq_some.mpr ⟨hj, hpeer⟩).symm.trans hold
    obtain ⟨-, rfl⟩ := Prod.mk.inj (Option.some.inj hsame)
    exact ⟨new, mem_setPeer_self hget, hnew, hself rfl rfl⟩
  · exact ⟨peer, mem_setPeer_of_ne hget hmem hpeer, rfl, hother (Ne.symm hpeer)⟩

theorem hold_of_data {endpoint : UdpEndpoint} {since : Option TimePoint} {now : TimePoint}
    {sender : UdpEndpoint} {datagram : Datagram} {message : LocalMessage}
    (hmessage : messageOf datagram = some message)
    (hcontrol : message.type.isControl = false) :
    hold endpoint since (.receive now sender datagram) = since := by
  unfold hold
  rw [receivedFrom_receive hmessage]
  by_cases hsender : sender = endpoint
  · cases htype : message.type <;>
      simp [hsender, htype, TunnelMessageType.isControl] at hcontrol ⊢
  · simp [hsender]

theorem PeerTable.ne_endpoint {t : UdpTunnel} (h : t.PeerTable) {peer : PeerEntry}
    (hmem : peer ∈ t.mPeers) {sender : UdpEndpoint} (hpeer : t.peer? sender = none) :
    sender ≠ peer.endpoint := by
  rintro rfl
  exact h.indexed.peer?_eq_none.mp hpeer (List.mem_map_of_mem hmem)

theorem hold_of_ignored {t : UdpTunnel} (h : t.PeerTable) {peer : PeerEntry}
    (hmem : peer ∈ t.mPeers) {now : TimePoint} {sender : UdpEndpoint} {datagram : Datagram}
    {message : LocalMessage} (hmessage : messageOf datagram = some message)
    (hignored : t.Ignored sender message) :
    hold peer.endpoint (PeerEntry.heldSince peer) (.receive now sender datagram) =
      PeerEntry.heldSince peer := by
  by_cases hsender : sender = peer.endpoint
  · cases htype : message.type with
    | tunnelHello =>
        exact absurd hsender (h.ne_endpoint hmem (hignored.hello htype).1)
    | tunnelBye => exact absurd hsender (h.ne_endpoint hmem (hignored.bye htype))
    | tunnelKeepalive =>
        obtain ⟨idx, hget⟩ := List.getElem?_of_mem hmem
        have hfound := h.peer?_eq_some.mpr ⟨hget, hsender.symm⟩
        have hstate := hignored.other (by simp [htype]) (by simp [htype]) idx peer hfound
        simp [hold, receivedFrom_receive hmessage, hsender, htype, PeerEntry.heldSince, hstate]
    | _ => exact hold_of_data hmessage (by rw [htype]; rfl)
  · simp [hold, receivedFrom_receive hmessage, hsender]

theorem records_next {t : UdpTunnel} (h : t.PeerTable) (hrun : t.isRunning = true)
    {peer : PeerEntry} (hmem : peer ∈ t.mPeers) {e : TunnelEvent}
    (hstays : e ≠ .removePeer peer.endpoint) :
    Records (next machine t e).mPeers peer.endpoint
      (hold peer.endpoint (PeerEntry.heldSince peer) e) := by
  have heffect := effect t e
  generalize next machine t e = t', emit machine t e = out at heffect ⊢
  cases heffect with
  | hello hmessage htype hpeer =>
      refine records_setPeer h hmem hpeer ?_ ?_ ?_
      · rfl
      · intro hsender _
        simp [hold, receivedFrom_receive hmessage, hsender, htype, PeerEntry.heldSince]
      · intro hsender
        simp [hold, receivedFrom_receive hmessage, hsender]
  | keepalive hmessage htype hpeer hstate =>
      refine records_setPeer h hmem hpeer ?_ ?_ ?_
      · rfl
      · rintro hsender rfl
        simp [hold, receivedFrom_receive hmessage, hsender, htype, PeerEntry.heldSince, hstate]
      · intro hsender
        simp [hold, receivedFrom_receive hmessage, hsender]
  | bye hmessage htype hpeer =>
      refine records_setPeer h hmem hpeer ?_ ?_ ?_
      · rfl
      · intro hsender _
        simp [hold, receivedFrom_receive hmessage, hsender, htype, PeerEntry.heldSince]
      · intro hsender
        simp [hold, receivedFrom_receive hmessage, hsender]
  | @leave _ _ _ message _ _ hmessage htype =>
      have hcontrol : message.type.isControl = false := by rw [htype]; rfl
      exact ⟨peer, hmem, rfl, (hold_of_data hmessage hcontrol).symm⟩
  | data hmessage hcontrol =>
      exact ⟨peer, hmem, rfl, (hold_of_data hmessage hcontrol).symm⟩
  | unknown hmessage htype hpeer =>
      refine ⟨peer, hmem, rfl, ?_⟩
      have hsender := h.ne_endpoint hmem hpeer
      simp [hold, receivedFrom_receive hmessage, hsender]
  | ignored hmessage hignored =>
      refine ⟨peer, hmem, rfl, ?_⟩
      exact (hold_of_ignored h hmem hmessage hignored).symm
  | @maintain now =>
      refine ⟨maintained now peer, ?_, endpoint_maintained now peer, ?_⟩
      · rw [mPeers_runMaintenance hrun]
        exact List.mem_map_of_mem hmem
      · by_cases hc : peer.state = .connected
        · by_cases hlate : kKeepaliveTimeout < now - peer.lastSeen
          · simp only [PeerEntry.heldSince, hold, maintained, hc, hlate, if_true,
              Option.filter_some, not_true_eq_false, decide_false, reduceCtorEq, if_false]
          · simp only [PeerEntry.heldSince, hold, maintained, hc, hlate, if_true,
              Option.filter_some, not_false_eq_true, decide_true, if_false]
        · simp [PeerEntry.heldSince, hold, maintained, hc]
  | stopped hstopped =>
      rw [hrun] at hstopped
      cases hstopped
  | add | accept => exact ⟨peer, List.mem_append_left _ hmem, rfl, rfl⟩
  | @remove endpoint idx hknown =>
      have hget := (h.index _ _).mp hknown
      obtain ⟨j, hj⟩ := List.getElem?_of_mem hmem
      refine ⟨peer, List.mem_eraseIdx_iff_getElem?.mpr ⟨j, ?_, hj⟩, rfl, rfl⟩
      rintro rfl
      rw [getElem?_endpoints, hj, Option.map_some, Option.some.injEq] at hget
      exact hstays (by rw [hget])
  | _ => exact ⟨peer, hmem, rfl, rfl⟩

/-! ## Following a peer from its addition -/

/-- The record that the events since its addition make of a peer. -/
def record (endpoint : UdpEndpoint) (since : List TunnelEvent) : Option TimePoint :=
  since.foldl (hold endpoint) none

theorem record_concat (endpoint : UdpEndpoint) (since : List TunnelEvent) (e : TunnelEvent) :
    record endpoint (since ++ [e]) = hold endpoint (record endpoint since) e := by
  simp [record]

theorem sinceAdded_concat (initialPeers : List UdpEndpoint) (endpoint : UdpEndpoint)
    (past : List TunnelEvent) (e : TunnelEvent) :
    sinceAdded initialPeers endpoint (past ++ [e]) =
      match sinceAdded initialPeers endpoint past with
      | none => if e = .addPeer endpoint ∨ e = .acceptPeer endpoint then some [] else none
      | some since => if e = .removePeer endpoint then none else some (since ++ [e]) := by
  simp only [sinceAdded, List.foldl_append, List.foldl_cons, List.foldl_nil]

theorem sinceAdded_suffix {initialPeers : List UdpEndpoint} {endpoint : UdpEndpoint}
    {past since : List TunnelEvent}
    (h : sinceAdded initialPeers endpoint past = some since) : since <:+ past := by
  induction past using List.reverseRecOn generalizing since with
  | nil =>
      by_cases hmem : endpoint ∈ initialPeers
      · simp [sinceAdded, hmem] at h
        simp [← h]
      · simp [sinceAdded, hmem] at h
  | append_singleton past e ih =>
      rw [sinceAdded_concat] at h
      cases hpast : sinceAdded initialPeers endpoint past with
      | none =>
          simp only [hpast] at h
          split at h
          · rw [← Option.some.inj h]
            exact List.nil_suffix
          · cases h
      | some earlier =>
          simp only [hpast] at h
          split at h
          · cases h
          · rw [← Option.some.inj h]
            obtain ⟨before, rfl⟩ := ih hpast
            exact ⟨before, by simp⟩

/-- What the table says of an endpoint after the events of `past`. -/
structure Tracked (initialPeers : List UdpEndpoint) (endpoint : UdpEndpoint)
    (past : List TunnelEvent) (t : UdpTunnel) : Prop where
  table : t.PeerTable
  running : t.isRunning = true
  absent : sinceAdded initialPeers endpoint past = none → endpoint ∉ t.endpoints
  present : ∀ since, sinceAdded initialPeers endpoint past = some since →
    Records t.mPeers endpoint (record endpoint since)

theorem records_addition {t : UdpTunnel} {endpoint : UdpEndpoint}
    (hnew : t.mEndpointToPeerIdx.find endpoint = none) {e : TunnelEvent}
    (he : e = .addPeer endpoint ∨ e = .acceptPeer endpoint) :
    Records (next machine t e).mPeers endpoint none := by
  rcases he with rfl | rfl <;>
    exact ⟨freshEntry endpoint, by simp [next, machine, acceptPeer, addPeer, hnew, pushPeer],
      rfl, rfl⟩

theorem Tracked.next {initialPeers : List UdpEndpoint} {endpoint : UdpEndpoint}
    {past : List TunnelEvent} {t : UdpTunnel} (h : Tracked initialPeers endpoint past t)
    (e : TunnelEvent) :
    Tracked initialPeers endpoint (past ++ [e]) (next machine t e) := by
  have htable := peerTable_next h.table e
  have hrunning := (isRunning_next t e).trans h.running
  have hconcat := sinceAdded_concat initialPeers endpoint past e
  cases hpast : sinceAdded initialPeers endpoint past with
  | none =>
      have hnot := h.absent hpast
      simp only [hpast] at hconcat
      by_cases he : e = .addPeer endpoint ∨ e = .acceptPeer endpoint
      · rw [if_pos he] at hconcat
        refine ⟨htable, hrunning, by simp [hconcat], ?_⟩
        rintro since hsince
        obtain rfl : [] = since := Option.some.inj (hconcat.symm.trans hsince)
        exact records_addition (h.table.indexed.find_eq_none.mpr hnot) he
      · rw [if_neg he] at hconcat
        refine ⟨htable, hrunning, fun _ ↦ ?_, by simp [hconcat]⟩
        exact notMem_endpoints_next hnot (fun heq ↦ he (Or.inl heq))
          (fun heq ↦ he (Or.inr heq))
  | some since =>
      simp only [hpast] at hconcat
      by_cases he : e = .removePeer endpoint
      · rw [if_pos he] at hconcat
        refine ⟨htable, hrunning, fun _ ↦ ?_, by simp [hconcat]⟩
        subst he
        exact h.table.notMem_endpoints_removePeer endpoint
      · rw [if_neg he] at hconcat
        refine ⟨htable, hrunning, by simp [hconcat], ?_⟩
        intro since' hsince'
        obtain rfl : since ++ [e] = since' := Option.some.inj (hconcat.symm.trans hsince')
        obtain ⟨peer, hmem, rfl, hrecord⟩ := h.present since hpast
        rw [record_concat, ← hrecord]
        exact records_next h.table h.running hmem he

theorem tracked_run {initialPeers : List UdpEndpoint} (hnodup : initialPeers.Nodup)
    (endpoint : UdpEndpoint) (es : List TunnelEvent) :
    Tracked initialPeers endpoint es (run machine (create initialPeers) es) := by
  apply history_induction machine _ _ (fun _ e h ↦ h.next e)
  have hendpoints := endpoints_create initialPeers
  refine ⟨peerTable_create hnodup, isRunning_create _, ?_, ?_⟩
  · intro hnone
    simpa [sinceAdded, hendpoints] using hnone
  · intro since hsince
    have hmem : endpoint ∈ initialPeers := by
      by_contra hnot
      simp [sinceAdded, hnot] at hsince
    obtain rfl : since = [] := by simpa [sinceAdded, hmem] using hsince.symm
    rw [← hendpoints] at hmem
    obtain ⟨peer, hpeer, rfl⟩ := List.mem_map.mp hmem
    refine ⟨peer, hpeer, rfl, ?_⟩
    simp [PeerEntry.heldSince, state_create hpeer, record]

/-! ## The record and the history -/

/-- `l` is the time of the last HELLO or KEEPALIVE. -/
structure LastHeard (endpoint : UdpEndpoint) (past : List TunnelEvent) (l : TimePoint) :
    Prop where
  heard : HeardBetween endpoint l l past
  latest : ∀ earliest latest, HeardBetween endpoint earliest latest past → earliest ≤ l

theorem clocked_concat {past : List TunnelEvent} {e : TunnelEvent} (h : Clocked (past ++ [e])) :
    Clocked past ∧ ∀ k, e.now? = some k → ∀ e' ∈ past, ∀ k', e'.now? = some k' → k' ≤ k := by
  rw [Clocked, List.filterMap_append, List.pairwise_append] at h
  refine ⟨h.1, ?_⟩
  intro k hk e' he' k' hk'
  exact h.2.2 k' (List.mem_filterMap.mpr ⟨e', he', hk'⟩) k (by simp [hk])

theorem held_concat {endpoint : UdpEndpoint} {past : List TunnelEvent} {e : TunnelEvent} :
    Held endpoint (past ++ [e]) ↔ receivedFrom endpoint e = some .tunnelHello ∨
      (Held endpoint past ∧ receivedFrom endpoint e ≠ some .tunnelBye ∧
        ∀ t, e = .runMaintenance t →
          HeardBetween endpoint (t - kKeepaliveTimeout) t past) :=
  since_concat

theorem heardBetween_concat_of_ne {endpoint : UdpEndpoint} {past : List TunnelEvent}
    {e : TunnelEvent} (hhello : receivedFrom endpoint e ≠ some .tunnelHello)
    (hkeep : receivedFrom endpoint e ≠ some .tunnelKeepalive) {earliest latest : TimePoint} :
    HeardBetween endpoint earliest latest (past ++ [e]) ↔
      HeardBetween endpoint earliest latest past := by
  constructor
  · rintro ⟨e', hmem, htype, htime⟩
    rcases List.mem_append.mp hmem with hold | hnew
    · exact ⟨e', hold, htype, htime⟩
    · obtain rfl := List.mem_singleton.mp hnew
      exact absurd htype (not_or.mpr ⟨hhello, hkeep⟩)
  · rintro ⟨e', hmem, hrest⟩
    exact ⟨e', List.mem_append_left _ hmem, hrest⟩

theorem LastHeard.concat {endpoint : UdpEndpoint} {past : List TunnelEvent} {e : TunnelEvent}
    {l : TimePoint} (h : LastHeard endpoint past l)
    (hhello : receivedFrom endpoint e ≠ some .tunnelHello)
    (hkeep : receivedFrom endpoint e ≠ some .tunnelKeepalive) :
    LastHeard endpoint (past ++ [e]) l := by
  refine ⟨(heardBetween_concat_of_ne hhello hkeep).mpr h.heard, ?_⟩
  intro earliest latest hheard
  exact h.latest earliest latest ((heardBetween_concat_of_ne hhello hkeep).mp hheard)

/-- Nothing was heard later than what is heard now. -/
theorem lastHeard_concat {endpoint : UdpEndpoint} {past : List TunnelEvent} {e : TunnelEvent}
    (hclock : Clocked (past ++ [e])) {now : TimePoint} (hnow : e.now? = some now)
    (htype : receivedFrom endpoint e = some .tunnelHello ∨
      receivedFrom endpoint e = some .tunnelKeepalive) :
    LastHeard endpoint (past ++ [e]) now := by
  refine ⟨⟨e, by simp, htype, now, hnow, le_rfl, le_rfl⟩, ?_⟩
  rintro earliest latest ⟨e', hmem, -, k, hk, hearliest, -⟩
  apply hearliest.trans
  rcases List.mem_append.mp hmem with hold | hnew
  · exact (clocked_concat hclock).2 now hnow e' hold k hk
  · obtain rfl := List.mem_singleton.mp hnew
    exact (Option.some.inj (hk.symm.trans hnow)).le

theorem exists_receive_of_receivedFrom {endpoint : UdpEndpoint} {e : TunnelEvent}
    {type : TunnelMessageType} (h : receivedFrom endpoint e = some type) :
    ∃ now datagram, e = .receive now endpoint datagram := by
  cases e with
  | receive now sender datagram =>
      by_cases hsender : sender = endpoint
      · exact ⟨now, datagram, by rw [hsender]⟩
      · simp [receivedFrom, hsender] at h
  | _ => simp [receivedFrom] at h

/-- A pass finds a peer alive exactly when it was heard of within the timeout. -/
theorem LastHeard.alive_iff {endpoint : UdpEndpoint} {past : List TunnelEvent}
    {t l : TimePoint} (h : LastHeard endpoint past l)
    (hclock : Clocked (past ++ [.runMaintenance t])) :
    HeardBetween endpoint (t - kKeepaliveTimeout) t past ↔ ¬ kKeepaliveTimeout < t - l := by
  constructor
  · intro hheard
    have hle := h.latest _ _ hheard
    dsimp only [TimePoint] at *
    omega
  · intro halive
    obtain ⟨e, hmem, htype, k, hk, hlower, hupper⟩ := h.heard
    have hle := (clocked_concat hclock).2 t rfl e hmem k hk
    refine ⟨e, hmem, htype, k, hk, ?_, hle⟩
    dsimp only [TimePoint] at *
    omega

/-- The record is that of a held peer exactly when the history says so, and then
it is the time at which the peer was last heard of. -/
structure Agrees (endpoint : UdpEndpoint) (past : List TunnelEvent) : Prop where
  released : record endpoint past = none → ¬ Held endpoint past
  held : ∀ l, record endpoint past = some l → Held endpoint past ∧ LastHeard endpoint past l

theorem Agrees.released_concat {endpoint : UdpEndpoint} {past : List TunnelEvent}
    {e : TunnelEvent} (hrecord : hold endpoint (record endpoint past) e = none)
    (hheld : ¬ Held endpoint (past ++ [e])) : Agrees endpoint (past ++ [e]) := by
  rw [← record_concat] at hrecord
  exact ⟨fun _ ↦ hheld, fun l hl ↦ by simp [hrecord] at hl⟩

theorem Agrees.held_concat {endpoint : UdpEndpoint} {past : List TunnelEvent}
    {e : TunnelEvent} {l : TimePoint}
    (hrecord : hold endpoint (record endpoint past) e = some l)
    (hheld : Held endpoint (past ++ [e])) (hlast : LastHeard endpoint (past ++ [e]) l) :
    Agrees endpoint (past ++ [e]) := by
  rw [← record_concat] at hrecord
  refine ⟨fun hnone ↦ by simp [hrecord] at hnone, ?_⟩
  intro l' hl'
  obtain rfl : l = l' := Option.some.inj (hrecord.symm.trans hl')
  exact ⟨hheld, hlast⟩

theorem Agrees.receive {endpoint : UdpEndpoint} {past : List TunnelEvent} {e : TunnelEvent}
    (h : Agrees endpoint past) (hclock : Clocked (past ++ [e])) {type : TunnelMessageType}
    (htype : receivedFrom endpoint e = some type) : Agrees endpoint (past ++ [e]) := by
  obtain ⟨now, datagram, rfl⟩ := exists_receive_of_receivedFrom htype
  have hheld := @UdpTunnel.held_concat endpoint past (.receive now endpoint datagram)
  by_cases hhello : type = .tunnelHello
  · subst hhello
    apply Agrees.held_concat (l := now) (by simp [hold, htype])
    · exact hheld.mpr (Or.inl htype)
    · exact lastHeard_concat hclock rfl (Or.inl htype)
  by_cases hkeep : type = .tunnelKeepalive
  · subst hkeep
    cases hrecord : record endpoint past with
    | none =>
        apply Agrees.released_concat (by simp [hold, htype, hrecord])
        rw [hheld]
        simp [htype, h.released hrecord]
    | some l =>
        apply Agrees.held_concat (l := now) (by simp [hold, htype, hrecord])
        · exact hheld.mpr (Or.inr ⟨(h.held l hrecord).1, by simp [htype], by simp⟩)
        · exact lastHeard_concat hclock rfl (Or.inr htype)
  by_cases hbye : type = .tunnelBye
  · subst hbye
    apply Agrees.released_concat (by simp [hold, htype])
    rw [hheld]
    simp [htype]
  -- a data message
  have hsame : hold endpoint (record endpoint past) (.receive now endpoint datagram) =
      record endpoint past := by
    unfold hold
    rw [htype]
    cases type <;> simp at hhello hkeep hbye ⊢
  cases hrecord : record endpoint past with
  | none =>
      apply Agrees.released_concat (hsame.trans hrecord)
      rw [hheld]
      simp [htype, hhello, h.released hrecord]
  | some l =>
      obtain ⟨hpast, hlast⟩ := h.held l hrecord
      apply Agrees.held_concat (hsame.trans hrecord)
      · exact hheld.mpr (Or.inr ⟨hpast, by simp [htype, hbye], by simp⟩)
      · exact hlast.concat (by simp [htype, hhello]) (by simp [htype, hkeep])

theorem Agrees.tick {endpoint : UdpEndpoint} {past : List TunnelEvent} {t : TimePoint}
    (h : Agrees endpoint past) (hclock : Clocked (past ++ [.runMaintenance t])) :
    Agrees endpoint (past ++ [.runMaintenance t]) := by
  have hheld := @UdpTunnel.held_concat endpoint past (.runMaintenance t)
  cases hrecord : record endpoint past with
  | none =>
      apply Agrees.released_concat (by simp [hold, hrecord])
      rw [hheld]
      simp [receivedFrom, h.released hrecord]
  | some l =>
      obtain ⟨hpast, hlast⟩ := h.held l hrecord
      have halive := hlast.alive_iff hclock
      by_cases hlate : kKeepaliveTimeout < t - l
      · apply Agrees.released_concat
        · simp only [hold, hrecord, Option.filter_some, hlate, not_true_eq_false, decide_false,
            Bool.false_eq_true, if_false]
        · rw [hheld]
          rintro (hhello | ⟨-, -, hheard⟩)
          · simp [receivedFrom] at hhello
          · exact halive.mp (hheard t rfl) hlate
      · apply Agrees.held_concat (l := l)
        · simp only [hold, hrecord, Option.filter_some, hlate, not_false_eq_true, decide_true,
            if_true]
        · refine hheld.mpr (Or.inr ⟨hpast, by simp [receivedFrom], ?_⟩)
          intro t' ht'
          obtain rfl := TunnelEvent.runMaintenance.inj ht'
          exact halive.mpr hlate
        · exact hlast.concat (by simp [receivedFrom]) (by simp [receivedFrom])

theorem Agrees.skip {endpoint : UdpEndpoint} {past : List TunnelEvent} {e : TunnelEvent}
    (h : Agrees endpoint past) (htype : receivedFrom endpoint e = none)
    (htick : ∀ t, e ≠ .runMaintenance t) : Agrees endpoint (past ++ [e]) := by
  have hheld := @UdpTunnel.held_concat endpoint past e
  have hsame : hold endpoint (record endpoint past) e = record endpoint past := by
    unfold hold
    rw [htype]
    cases e with
    | runMaintenance t => exact absurd rfl (htick t)
    | _ => rfl
  cases hrecord : record endpoint past with
  | none =>
      apply Agrees.released_concat (hsame.trans hrecord)
      rw [hheld]
      simp [htype, h.released hrecord]
  | some l =>
      obtain ⟨hpast, hlast⟩ := h.held l hrecord
      apply Agrees.held_concat (hsame.trans hrecord)
      · exact hheld.mpr (Or.inr ⟨hpast, by simp [htype], fun t ht ↦ absurd ht (htick t)⟩)
      · exact hlast.concat (by simp [htype]) (by simp [htype])

theorem agrees_of_clocked {endpoint : UdpEndpoint} {past : List TunnelEvent}
    (hclock : Clocked past) : Agrees endpoint past := by
  induction past using List.reverseRecOn with
  | nil => exact ⟨fun _ ↦ not_since_nil _ _, fun l h ↦ by cases h⟩
  | append_singleton past e ih =>
      have h := ih (clocked_concat hclock).1
      cases htype : receivedFrom endpoint e with
      | some type => exact h.receive hclock htype
      | none =>
          by_cases htick : ∃ t, e = .runMaintenance t
          · obtain ⟨t, rfl⟩ := htick
            exact h.tick hclock
          · exact h.skip htype fun t ht ↦ htick ⟨t, ht⟩

theorem Clocked.suffix {past since : List TunnelEvent} (h : Clocked past)
    (hsuffix : since <:+ past) : Clocked since :=
  h.sublist (hsuffix.sublist.filterMap _)

/-! ## What connects a peer, and what does not -/

/-- Events that say nothing about the endpoint. -/
def Unrelated (endpoint : UdpEndpoint) : TunnelEvent → Prop
  | .receive _ sender datagram => sender ≠ endpoint ∨
      ∃ message, messageOf datagram = some message ∧ message.type.isControl = false
  | .runMaintenance _ => False
  | .removePeer other => other ≠ endpoint
  | _ => True

theorem Tracked.connected_iff {initialPeers : List UdpEndpoint} {endpoint : UdpEndpoint}
    {past : List TunnelEvent} {t : UdpTunnel} (h : Tracked initialPeers endpoint past t) :
    t.Connected endpoint ↔ ∃ since, sinceAdded initialPeers endpoint past = some since ∧
      record endpoint since ≠ none := by
  rw [h.table.connected_iff]
  cases hpast : sinceAdded initialPeers endpoint past with
  | none =>
      have hnone : t.heldSince endpoint = none := by
        rw [heldSince, h.table.indexed.peer?_eq_none.mpr (h.absent hpast)]
      simp [hnone]
  | some since =>
      obtain ⟨peer, hmem, rfl, hrecord⟩ := h.present since hpast
      rw [h.table.heldSince_of_mem hmem, hrecord]
      simp [Option.ne_none_iff_exists']

theorem Tracked.connected_next_iff {initialPeers : List UdpEndpoint} {endpoint : UdpEndpoint}
    {past : List TunnelEvent} {t : UdpTunnel} (h : Tracked initialPeers endpoint past t)
    {e : TunnelEvent} (he : Unrelated endpoint e) :
    (EventMachine.next machine t e).Connected endpoint ↔ t.Connected endpoint := by
  rw [h.connected_iff, (h.next e).connected_iff, sinceAdded_concat]
  cases hpast : sinceAdded initialPeers endpoint past with
  | none =>
      by_cases hadds : e = .addPeer endpoint ∨ e = .acceptPeer endpoint <;>
        simp [hadds, record]
  | some since =>
      have hremove : e ≠ .removePeer endpoint := by
        rintro rfl
        exact he rfl
      have hsame : hold endpoint (record endpoint since) e = record endpoint since := by
        cases e with
        | receive now sender datagram =>
            rcases he with hsender | ⟨message, hmessage, hcontrol⟩
            · simp [hold, receivedFrom, hsender]
            · exact hold_of_data hmessage hcontrol
        | runMaintenance t => exact absurd he id
        | _ => rfl
      simp [hremove, record_concat, hsame]

/-- A peer is connected exactly when, since it was last added, a HELLO of it was
processed, no BYE of it after that, and every later maintenance pass heard of it
within the timeout.  Nothing else changes that. -/
theorem connected_iff_held {initialPeers : List UdpEndpoint} (hnodup : initialPeers.Nodup)
    {es : List TunnelEvent} (hclock : Clocked es) (endpoint : UdpEndpoint) :
    ((run machine (create initialPeers) es).Connected endpoint ↔
      ∃ since, sinceAdded initialPeers endpoint es = some since ∧ Held endpoint since) ∧
    ∀ e, Unrelated endpoint e →
      ((run machine (create initialPeers) (es ++ [e])).Connected endpoint ↔
        (run machine (create initialPeers) es).Connected endpoint) := by
  have htracked := tracked_run hnodup endpoint es
  constructor
  · rw [htracked.connected_iff]
    refine exists_congr fun since ↦ and_congr_right fun hsince ↦ ?_
    have hagrees := @agrees_of_clocked endpoint since
      (hclock.suffix (sinceAdded_suffix hsince))
    constructor
    · intro hne
      obtain ⟨l, hl⟩ := Option.ne_none_iff_exists'.mp hne
      exact (hagrees.held l hl).1
    · intro hheld hnone
      exact hagrees.released hnone hheld
  · intro e he
    rw [run_concat]
    exact htracked.connected_next_iff he

/-- A peer says HELLO at time zero and is silent from then on. -/
def silence : List TunnelEvent :=
  [.addPeer (localhost 2), .receive 0 (localhost 2) (controlDatagram .tunnelHello),
    .runMaintenance kKeepaliveTimeout]

/-- The pass at the timeout itself keeps the peer; the next one lets it go. -/
theorem held_until_after_timeout :
    Held (localhost 2) (silence.drop 1) ∧
      ¬ Held (localhost 2) (silence.drop 1 ++ [.runMaintenance (kKeepaliveTimeout + 1)]) := by
  constructor
  · obtain ⟨since, hsince, hheld⟩ := (@connected_iff_held [localhost 1] (by decide) silence
      (by decide) (localhost 2)).1.mp (by decide +kernel)
    obtain rfl : silence.drop 1 = since := Option.some.inj hsince
    exact hheld
  · intro hheld
    have hconnected := (@connected_iff_held [localhost 1] (by decide)
      (silence ++ [.runMaintenance (kKeepaliveTimeout + 1)]) (by decide)
      (localhost 2)).1.mpr ⟨_, rfl, hheld⟩
    revert hconnected
    decide +kernel

end UdpTunnel

end LinkExtender
