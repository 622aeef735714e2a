import LinkExtender.UdpTunnel.Steps

/-!
# The peer table and its index

`mEndpointToPeerIdx` always names the last position of each endpoint of
`mPeers`.  The two are inverse to each other exactly when the list handed to
the constructor has no repetitions: no later insertion makes one.
-/

namespace LinkExtender

namespace UdpTunnel

open EventMachine LastIndex

/-- The index holds the last position of every endpoint and nothing else. -/
def Indexed (t : UdpTunnel) : Prop :=
  ∀ e, t.mEndpointToPeerIdx.find e = lastIdxOf e t.endpoints

/-- The endpoints are pairwise distinct, and the index maps exactly these, each
to its own position. -/
structure PeerTable (t : UdpTunnel) : Prop where
  distinct : t.endpoints.Nodup
  index : ∀ e i, t.mEndpointToPeerIdx.find e = some i ↔ t.endpoints[i]? = some e

theorem find_rebuildFrom (i : ℕ) (peers : List PeerEntry)
    (index : PartialMap UdpEndpoint ℕ) (e : UdpEndpoint) :
    (rebuildFrom i peers index).find e =
      ((lastIdxOf e (peers.map PeerEntry.endpoint)).map (i + ·)).or (index.find e) := by
  induction peers generalizing i index with
  | nil => simp [rebuildFrom]
  | cons peer peers ih =>
      rw [rebuildFrom, ih, List.map_cons, lastIdxOf]
      cases hlast : lastIdxOf e (peers.map PeerEntry.endpoint) with
      | some k => simp [Nat.add_assoc, Nat.add_comm 1 k]
      | none =>
          by_cases he : peer.endpoint = e
          · simp [he]
          · simp [he, PartialMap.find_insert_of_ne _ (Ne.symm he)]

theorem indexed_rebuildEndpointIndex (t : UdpTunnel)
    (h : t.mEndpointToPeerIdx = rebuildEndpointIndex t.mPeers) : t.Indexed := by
  intro e
  rw [h, rebuildEndpointIndex, find_rebuildFrom, PartialMap.find_empty, Option.or_none]
  change (lastIdxOf e t.endpoints).map (0 + ·) = lastIdxOf e t.endpoints
  cases lastIdxOf e t.endpoints <;> simp

theorem Indexed.pushPeer {t : UdpTunnel} (h : t.Indexed) (endpoint : UdpEndpoint) :
    (t.pushPeer endpoint).Indexed := by
  intro e
  rw [endpoints_pushPeer, lastIdxOf_concat, length_endpoints, ← h e]
  exact PartialMap.find_insert ..

theorem indexed_create (initialPeers : List UdpEndpoint) :
    (create initialPeers).Indexed := by
  unfold create
  generalize hstart : UdpTunnel.mk true DedupCache.initial [] PartialMap.empty
    PartialMap.empty ∅ ∅ = start
  have hindexed : start.Indexed := by
    subst hstart
    intro e
    simp [endpoints]
  clear hstart
  induction initialPeers generalizing start with
  | nil => exact hindexed
  | cons e es ih => exact ih _ (hindexed.pushPeer e)

theorem endpoints_create (initialPeers : List UdpEndpoint) :
    (create initialPeers).endpoints = initialPeers := by
  have hfold : ∀ (es : List UdpEndpoint) (t : UdpTunnel),
      (es.foldl UdpTunnel.pushPeer t).endpoints = t.endpoints ++ es := by
    intro es
    induction es with
    | nil => simp
    | cons e es ih => intro t; simp [ih]
  rw [create, hfold]
  rfl

/-- The pushes of the constructor add disconnected entries and touch nothing else. -/
theorem create_spec (initialPeers : List UdpEndpoint) :
    (∀ peer ∈ (create initialPeers).mPeers, peer.state = .disconnected) ∧
    (create initialPeers).mDedupCache = DedupCache.initial ∧
    (create initialPeers).remoteNodeIdToPeerIdx = PartialMap.empty ∧
    (create initialPeers).mPendingPeers = ∅ ∧ (create initialPeers).isRunning = true := by
  have hfold : ∀ (es : List UdpEndpoint) (t : UdpTunnel),
      (∀ peer ∈ t.mPeers, peer.state = .disconnected) →
      (∀ peer ∈ (es.foldl UdpTunnel.pushPeer t).mPeers, peer.state = .disconnected) ∧
      (es.foldl UdpTunnel.pushPeer t).mDedupCache = t.mDedupCache ∧
      (es.foldl UdpTunnel.pushPeer t).remoteNodeIdToPeerIdx = t.remoteNodeIdToPeerIdx ∧
      (es.foldl UdpTunnel.pushPeer t).mPendingPeers = t.mPendingPeers ∧
      (es.foldl UdpTunnel.pushPeer t).isRunning = t.isRunning := by
    intro es
    induction es with
    | nil => exact fun t h ↦ ⟨h, rfl, rfl, rfl, rfl⟩
    | cons e es ih =>
        intro t h
        refine ih (t.pushPeer e) fun peer hpeer ↦ ?_
        rcases List.mem_append.mp hpeer with hold | hnew
        · exact h peer hold
        · rw [List.mem_singleton.mp hnew]
          rfl
  apply hfold initialPeers _
  simp

theorem state_create {initialPeers : List UdpEndpoint} {peer : PeerEntry}
    (h : peer ∈ (create initialPeers).mPeers) : peer.state = .disconnected :=
  (create_spec initialPeers).1 peer h

@[simp] theorem mDedupCache_create (initialPeers : List UdpEndpoint) :
    (create initialPeers).mDedupCache = DedupCache.initial :=
  (create_spec initialPeers).2.1

@[simp] theorem remoteNodeIdToPeerIdx_create (initialPeers : List UdpEndpoint) :
    (create initialPeers).remoteNodeIdToPeerIdx = PartialMap.empty :=
  (create_spec initialPeers).2.2.1

@[simp] theorem mPendingPeers_create (initialPeers : List UdpEndpoint) :
    (create initialPeers).mPendingPeers = ∅ :=
  (create_spec initialPeers).2.2.2.1

@[simp] theorem isRunning_create (initialPeers : List UdpEndpoint) :
    (create initialPeers).isRunning = true :=
  (create_spec initialPeers).2.2.2.2

theorem Indexed.congr {t t' : UdpTunnel} (h : t.Indexed)
    (hendpoints : t'.endpoints = t.endpoints)
    (hindex : t'.mEndpointToPeerIdx = t.mEndpointToPeerIdx) : t'.Indexed := by
  intro e
  rw [hendpoints, hindex]
  exact h e

theorem endpoints_next (t : UdpTunnel) (e : TunnelEvent) :
    (next machine t e).endpoints = t.endpoints ∨
    (∃ endpoint, (e = .addPeer endpoint ∨ e = .acceptPeer endpoint) ∧
      t.mEndpointToPeerIdx.find endpoint = none ∧
      (next machine t e).endpoints = t.endpoints ++ [endpoint]) ∨
    (∃ endpoint idx, e = .removePeer endpoint ∧
      t.mEndpointToPeerIdx.find endpoint = some idx ∧
      (next machine t e).endpoints = t.endpoints.eraseIdx idx) := by
  have heffect := effect t e
  generalize next machine t e = t', emit machine t e = out at heffect ⊢
  cases heffect with
  | hello _ _ hpeer | keepalive _ _ hpeer _ | bye _ _ hpeer =>
      exact Or.inl (endpoints_setPeer (peer?_eq_some.mp hpeer).2 rfl)
  | maintain hrun =>
      apply Or.inl
      rw [endpoints, mPeers_runMaintenance hrun]
      simp [endpoints, Function.comp_def]
  | @add endpoint hnew =>
      exact Or.inr (Or.inl ⟨endpoint, Or.inl rfl, hnew, endpoints_pushPeer ..⟩)
  | @accept endpoint hnew =>
      exact Or.inr (Or.inl ⟨endpoint, Or.inr rfl, hnew, endpoints_pushPeer ..⟩)
  | @remove endpoint idx hknown =>
      refine Or.inr (Or.inr ⟨endpoint, idx, rfl, hknown, ?_⟩)
      simp [endpoints, List.eraseIdx_map]
  | _ => exact Or.inl rfl

theorem indexed_next {t : UdpTunnel} (h : t.Indexed) (e : TunnelEvent) :
    (next machine t e).Indexed := by
  have heffect := effect t e
  generalize next machine t e = t', emit machine t e = out at heffect ⊢
  cases heffect with
  | hello _ _ hpeer | keepalive _ _ hpeer _ | bye _ _ hpeer =>
      exact h.congr (endpoints_setPeer (peer?_eq_some.mp hpeer).2 rfl) rfl
  | @maintain now hrun =>
      refine h.congr ?_ (mEndpointToPeerIdx_runMaintenance t now)
      rw [endpoints, mPeers_runMaintenance hrun]
      simp [endpoints, Function.comp_def]
  | add _ => exact h.pushPeer _
  | accept _ => exact Indexed.pushPeer (h.congr rfl rfl) _
  | remove _ => exact indexed_rebuildEndpointIndex _ rfl
  | _ => exact h.congr rfl rfl

theorem indexed_run (initialPeers : List UdpEndpoint) (es : List TunnelEvent) :
    (run machine (create initialPeers) es).Indexed :=
  run_invariant machine (I := Indexed) (fun _ e h ↦ indexed_next h e)
    (indexed_create initialPeers) es

/-- `mPeers[idx]` in `handleReceive` is always in range. -/
theorem Indexed.getElem? {t : UdpTunnel} (h : t.Indexed) {endpoint : UdpEndpoint}
    {idx : ℕ} (hfind : t.mEndpointToPeerIdx.find endpoint = some idx) :
    ∃ peer, t.mPeers[idx]? = some peer ∧ peer.endpoint = endpoint := by
  have hget := (lastIdxOf_eq_some.mp ((h endpoint).symm.trans hfind)).1
  rw [getElem?_endpoints] at hget
  obtain ⟨peer, hpeer, hendpoint⟩ := Option.map_eq_some_iff.mp hget
  exact ⟨peer, hpeer, hendpoint⟩

theorem Indexed.find_eq_none {t : UdpTunnel} (h : t.Indexed) {endpoint : UdpEndpoint} :
    t.mEndpointToPeerIdx.find endpoint = none ↔ endpoint ∉ t.endpoints := by
  rw [h endpoint, lastIdxOf_eq_none]

theorem Indexed.mem_endpoints {t : UdpTunnel} (h : t.Indexed) {endpoint : UdpEndpoint}
    {idx : ℕ} {peer : PeerEntry} (hpeer : t.peer? endpoint = some (idx, peer)) :
    endpoint ∈ t.endpoints ∧ peer.endpoint = endpoint := by
  obtain ⟨hfind, hget⟩ := peer?_eq_some.mp hpeer
  obtain ⟨peer', hget', hendpoint⟩ := h.getElem? hfind
  obtain rfl : peer = peer' := Option.some.inj (hget.symm.trans hget')
  exact ⟨List.mem_map.mpr ⟨peer, List.mem_of_getElem? hget, hendpoint⟩, hendpoint⟩

theorem Indexed.peer?_eq_none {t : UdpTunnel} (h : t.Indexed) {endpoint : UdpEndpoint} :
    t.peer? endpoint = none ↔ endpoint ∉ t.endpoints := by
  rw [← h.find_eq_none]
  cases hfind : t.mEndpointToPeerIdx.find endpoint with
  | none => simp [peer?, hfind]
  | some idx =>
      obtain ⟨peer, hget, -⟩ := h.getElem? hfind
      simp [peer?, hfind, hget]

/-! ## Distinct endpoints -/

theorem peerTable_iff {t : UdpTunnel} (h : t.Indexed) :
    t.PeerTable ↔ t.endpoints.Nodup := by
  refine ⟨fun table ↦ table.distinct, fun hnodup ↦ ⟨hnodup, ?_⟩⟩
  intro e i
  rw [h e, lastIdxOf_of_nodup hnodup]

theorem nodup_endpoints_next {t : UdpTunnel} (h : t.Indexed)
    (hnodup : t.endpoints.Nodup) (e : TunnelEvent) :
    (next machine t e).endpoints.Nodup := by
  rcases endpoints_next t e with heq | ⟨endpoint, -, hnew, heq⟩ | ⟨_, idx, -, -, heq⟩
  · rwa [heq]
  · rw [heq, List.nodup_append]
    have hnotMem := h.find_eq_none.mp hnew
    refine ⟨hnodup, List.nodup_singleton _, ?_⟩
    rintro a ha b hb rfl
    apply hnotMem
    exact List.mem_singleton.mp hb ▸ ha
  · rw [heq]
    exact hnodup.sublist (List.eraseIdx_sublist _ _)

theorem PeerTable.indexed {t : UdpTunnel} (h : t.PeerTable) : t.Indexed := by
  intro e
  cases hlast : lastIdxOf e t.endpoints with
  | some i =>
      rw [h.index]
      exact (lastIdxOf_of_nodup h.distinct).mp hlast
  | none =>
      cases hfind : t.mEndpointToPeerIdx.find e with
      | none => rfl
      | some i =>
          have hmem := List.mem_of_getElem? ((h.index e i).mp hfind)
          exact absurd hmem (lastIdxOf_eq_none.mp hlast)

theorem peerTable_next {t : UdpTunnel} (h : t.PeerTable) (e : TunnelEvent) :
    (next machine t e).PeerTable :=
  (peerTable_iff (indexed_next h.indexed e)).mpr (nodup_endpoints_next h.indexed h.distinct e)

theorem peerTable_create {initialPeers : List UdpEndpoint} (h : initialPeers.Nodup) :
    (create initialPeers).PeerTable :=
  (peerTable_iff (indexed_create initialPeers)).mpr (by rwa [endpoints_create])

/-! ## Endpoints outside the table -/

/-- Nothing is sent to `endpoint` and no message from it is forwarded, unless
the next event adds it. -/
def Unheard (t : UdpTunnel) (endpoint : UdpEndpoint) : Prop :=
  ∀ e, e ≠ .addPeer endpoint → e ≠ .acceptPeer endpoint →
    (∀ bytes, .send endpoint bytes ∉ emit machine t e) ∧
    ∀ now datagram, e = .receive now endpoint datagram →
      ∀ message, .forwardLocally message ∉ emit machine t e

/-- A datagram goes to a peer in the table or to the endpoint being added. -/
theorem send_mem_emit {t : UdpTunnel} (h : t.Indexed) {e : TunnelEvent}
    {dest : UdpEndpoint} {bytes : List UInt8} (hsend : .send dest bytes ∈ emit machine t e) :
    dest ∈ t.endpoints ∨ e = .addPeer dest ∨ e = .acceptPeer dest := by
  have heffect := effect t e
  generalize next machine t e = t', emit machine t e = out at heffect hsend
  cases heffect with
  | @hello now sender datagram message idx peer hmessage htype hpeer =>
      split at hsend
      · simp at hsend
      · obtain ⟨rfl, -⟩ := TunnelOutput.send.inj (by simpa using hsend)
        exact Or.inl (h.mem_endpoints hpeer).1
  | @maintain now hrun =>
      obtain ⟨peer, hpeer, hmem⟩ := List.mem_flatMap.mp hsend
      rw [endpoint_of_send_mem_maintenanceOutput hmem]
      exact Or.inl (List.mem_map_of_mem hpeer)
  | @add endpoint hnew =>
      obtain ⟨rfl, -⟩ := TunnelOutput.send.inj (by simpa using hsend)
      exact Or.inr (Or.inl rfl)
  | @accept endpoint hnew =>
      obtain ⟨rfl, -⟩ := TunnelOutput.send.inj (by simpa using hsend)
      exact Or.inr (Or.inr rfl)
  | @remove endpoint idx hknown =>
      obtain ⟨rfl, -⟩ := TunnelOutput.send.inj (by simpa using hsend)
      obtain ⟨peer, hget, hendpoint⟩ := h.getElem? hknown
      exact Or.inl (hendpoint ▸ List.mem_map_of_mem (List.mem_of_getElem? hget))
  | @forward now type fromNode message toNode out hforward =>
      subst hforward
      obtain ⟨dest', hdest', bytes', heq⟩ := mem_forward_snd hsend
      obtain ⟨rfl, -⟩ := TunnelOutput.send.inj heq
      obtain ⟨peer, hpeer, -, hendpoint⟩ := exists_peer_of_mem_recipients hdest'
      exact Or.inl (hendpoint ▸ List.mem_map_of_mem hpeer)
  | unknown => simp at hsend
  | leave => simp at hsend
  | data => simp at hsend
  | _ => simp at hsend

/-- Only a datagram from a connected peer is forwarded to the gateways. -/
theorem forwardLocally_mem_emit {t : UdpTunnel} {e : TunnelEvent}
    {message : LocalMessage} (hmem : .forwardLocally message ∈ emit machine t e) :
    ∃ now sender datagram idx peer, e = .receive now sender datagram ∧
      messageOf datagram = some message ∧ message.type.isControl = false ∧
      t.peer? sender = some (idx, peer) ∧ peer.state = .connected := by
  have heffect := effect t e
  generalize next machine t e = t', emit machine t e = out at heffect hmem
  cases heffect with
  | @hello now sender datagram message idx peer hmessage htype hpeer =>
      split at hmem <;> simp at hmem
  | @maintain now hrun =>
      obtain ⟨peer, -, hpeer⟩ := List.mem_flatMap.mp hmem
      unfold maintenanceOutput at hpeer
      split at hpeer
      · split at hpeer <;> simp at hpeer
      · simp at hpeer
  | @leave now sender datagram message' idx peer hmessage htype hpeer hstate =>
      obtain rfl : message = message' := by simpa using hmem
      exact ⟨now, sender, datagram, idx, peer, rfl, hmessage, by rw [htype]; rfl, hpeer,
        hstate⟩
  | @data now sender datagram message' idx peer hmessage hcontrol htype hpeer hstate =>
      obtain rfl : message = message' := by simpa using hmem
      exact ⟨now, sender, datagram, idx, peer, rfl, hmessage, hcontrol, hpeer, hstate⟩
  | @forward now type fromNode message toNode out hforward =>
      subst hforward
      obtain ⟨dest, -, bytes, heq⟩ := mem_forward_snd hmem
      simp at heq
  | _ => simp at hmem

theorem Indexed.unheard {t : UdpTunnel} (h : t.Indexed) {endpoint : UdpEndpoint}
    (hnot : endpoint ∉ t.endpoints) : t.Unheard endpoint := by
  intro e hadd haccept
  constructor
  · intro bytes hsend
    rcases send_mem_emit h hsend with hmem | rfl | rfl
    · exact hnot hmem
    · exact hadd rfl
    · exact haccept rfl
  · rintro now datagram rfl message hmem
    obtain ⟨now', sender, datagram', idx, peer, heq, -, -, hpeer, -⟩ :=
      forwardLocally_mem_emit hmem
    obtain ⟨-, rfl, -⟩ := TunnelEvent.receive.inj heq
    exact hnot (h.mem_endpoints hpeer).1

theorem notMem_endpoints_next {t : UdpTunnel} {endpoint : UdpEndpoint}
    (hnot : endpoint ∉ t.endpoints) {e : TunnelEvent} (hadd : e ≠ .addPeer endpoint)
    (haccept : e ≠ .acceptPeer endpoint) :
    endpoint ∉ (next machine t e).endpoints := by
  rcases endpoints_next t e with heq | ⟨added, hevent, -, heq⟩ | ⟨_, idx, -, -, heq⟩
  · rwa [heq]
  · rw [heq, List.mem_append, List.mem_singleton, not_or]
    refine ⟨hnot, ?_⟩
    rintro rfl
    rcases hevent with rfl | rfl
    · exact hadd rfl
    · exact haccept rfl
  · rw [heq]
    exact fun hmem ↦ hnot (List.mem_of_mem_eraseIdx hmem)

theorem PeerTable.notMem_endpoints_removePeer {t : UdpTunnel} (h : t.PeerTable)
    (endpoint : UdpEndpoint) :
    endpoint ∉ (next machine t (.removePeer endpoint)).endpoints := by
  have heffect := effect t (.removePeer endpoint)
  generalize next machine t (.removePeer endpoint) = t',
    emit machine t (.removePeer endpoint) = out at heffect ⊢
  cases heffect with
  | remove hknown =>
      have hnot := notMem_eraseIdx_of_nodup h.distinct ((h.index _ _).mp hknown)
      simpa [endpoints, List.eraseIdx_map] using hnot
  | removeUnknown hnew => exact h.indexed.find_eq_none.mp hnew

/-- The claims of the peer table for one list of initial peers, over all runs. -/
structure SoundFrom (initialPeers : List UdpEndpoint) : Prop where
  table : ∀ es, (run machine (create initialPeers) es).PeerTable
  removed : ∀ es endpoint later,
    (∀ e ∈ later, e ≠ .addPeer endpoint ∧ e ≠ .acceptPeer endpoint) →
    (run machine (create initialPeers) (es ++ .removePeer endpoint :: later)).Unheard
      endpoint

theorem SoundFrom.nodup {initialPeers : List UdpEndpoint} (h : SoundFrom initialPeers) :
    initialPeers.Nodup := by
  have htable := (h.table []).distinct
  rwa [run_nil, endpoints_create] at htable

theorem notMem_endpoints_run {t : UdpTunnel} {endpoint : UdpEndpoint}
    (hnot : endpoint ∉ t.endpoints) {later : List TunnelEvent}
    (hlater : ∀ e ∈ later, e ≠ .addPeer endpoint ∧ e ≠ .acceptPeer endpoint) :
    endpoint ∉ (run machine t later).endpoints := by
  induction later generalizing t with
  | nil => exact hnot
  | cons e later ih =>
      obtain ⟨hadd, haccept⟩ := hlater e List.mem_cons_self
      exact ih (notMem_endpoints_next hnot hadd haccept)
        (fun e' he' ↦ hlater e' (List.mem_cons_of_mem e he'))

/-- Positions and index stay inverse, and removed peers silent, in every run
exactly when the constructor was given no endpoint twice. -/
theorem soundFrom_iff_nodup (initialPeers : List UdpEndpoint) :
    SoundFrom initialPeers ↔ initialPeers.Nodup := by
  refine ⟨SoundFrom.nodup, fun hnodup ↦ ?_⟩
  have htable : ∀ es, (run machine (create initialPeers) es).PeerTable := fun es ↦
    run_invariant machine (I := PeerTable) (fun _ e h ↦ peerTable_next h e)
      (peerTable_create hnodup) es
  refine ⟨htable, ?_⟩
  intro es endpoint later hlater
  have hnot := notMem_endpoints_run ((htable es).notMem_endpoints_removePeer endpoint)
    hlater
  refine (htable _).indexed.unheard ?_
  rwa [run_append, run_cons]

/-- Given twice, an endpoint has two entries, and removing it leaves one that
the next maintenance pass still sends to. -/
theorem not_soundFrom_twice :
    ¬ SoundFrom [localhost 20809, localhost 20809] ∧
    ¬ (run machine (create [localhost 20809, localhost 20809])
        [.removePeer (localhost 20809)]).Unheard (localhost 20809) := by
  constructor
  · intro h
    exact absurd h.nodup (by decide)
  · intro h
    refine (h (.runMaintenance 0) (by decide) (by decide)).1
      (controlBytes .tunnelHello) ?_
    decide

end UdpTunnel

end LinkExtender
