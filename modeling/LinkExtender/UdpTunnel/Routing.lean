import LinkExtender.UdpTunnel.PeerTable

/-!
# Routing against a table of endpoints

The tunnel stores positions of `mPeers` where a table of endpoints is meant.
`observe` keeps that table beside the tunnel.  The two agree until `removePeer`
closes a gap in front of a position that is still recorded.
-/

namespace LinkExtender

namespace UdpTunnel

open EventMachine LastIndex

/-- The table from nodes to the endpoints of the peers they live behind. -/
abbrev Reference := PartialMap NodeId UdpEndpoint

def timesOut (t : UdpTunnel) (now : TimePoint) (endpoint : UdpEndpoint) : Bool :=
  t.mPeers.any (fun peer ↦ decide (TimedOut now peer ∧ peer.endpoint = endpoint))

/-- How an event that is read in state `t` changes the reference table. -/
def observe (r : Reference) (t : UdpTunnel) : TunnelEvent → Reference
  | .receive _ sender datagram =>
      match messageOf datagram with
      | none => r
      | some message =>
          match message.type with
          | .tunnelHello | .tunnelKeepalive => r
          | .tunnelBye => r.eraseValues (fun p ↦ p = sender)
          | .byebye => if t.isConnected sender then r.erase message.fromNode else r
          | _ => if t.isConnected sender then r.emplace message.fromNode sender else r
  | .runMaintenance now =>
      if t.isRunning then r.eraseValues (t.timesOut now) else r
  | .removePeer endpoint => r.eraseValues (fun p ↦ p = endpoint)
  | _ => r

/-- Forwarding of addressed messages goes where the reference table says. -/
def RoutesAs (t : UdpTunnel) (r : Reference) : Prop :=
  ∀ now type fromNode message node msg, type.isRouted = true →
    ¬ t.Suppressed now type fromNode message →
    encapsulate ⟨fromNode, type, some node, 0⟩ message = some msg →
    emit machine t (.forward now type fromNode message (some node)) =
      (r.find node).toList.map (sendRaw msg (encapsulatedSize type message.length))

theorem routesAs_iff {t : UdpTunnel} {r : Reference} :
    t.RoutesAs r ↔ ∀ node, t.route node = r.find node := by
  constructor
  · intro h node
    have hmsg : encapsulate ⟨default, .measurementPing, some node, 0⟩ [] ≠ none := by
      simp [encapsulate_eq_none]
    obtain ⟨msg, hmsg⟩ := Option.ne_none_iff_exists'.mp hmsg
    have hfree : ¬ t.Suppressed 0 .measurementPing default [] := by
      rw [suppressed_iff]
      rintro ⟨h, -⟩
      cases h
    have hsend := h 0 .measurementPing default [] node msg rfl hfree hmsg
    rw [emit, machine, forward_snd, if_neg hfree, hmsg] at hsend
    have hdest : ∀ o o' : Option UdpEndpoint,
        o.toList.map (sendRaw msg (encapsulatedSize .measurementPing 0)) =
          o'.toList.map (sendRaw msg (encapsulatedSize .measurementPing 0)) →
        o = o' := by
      intro o o' heq
      cases o <;> cases o' <;> simp [sendRaw] at heq ⊢
      exact heq
    exact hdest _ _ hsend
  · intro h now type fromNode message node msg hrouted hfree hmsg
    rw [emit, machine, forward_snd, if_neg hfree, hmsg]
    simp only [recipients, hrouted, if_true, h node]

/-! ## Connected entries are the ones the index names -/

structure Seated (t : UdpTunnel) : Prop where
  indexed : t.Indexed
  connected : ∀ i peer, t.mPeers[i]? = some peer → peer.state = .connected →
    t.mEndpointToPeerIdx.find peer.endpoint = some i

theorem Seated.position_unique {t : UdpTunnel} (h : t.Seated) {i j : ℕ}
    {p q : PeerEntry} (hp : t.mPeers[i]? = some p) (hpc : p.state = .connected)
    (hq : t.mPeers[j]? = some q) (hqc : q.state = .connected)
    (heq : p.endpoint = q.endpoint) : i = j := by
  have hi := h.connected i p hp hpc
  rw [heq, h.connected j q hq hqc] at hi
  exact (Option.some.inj hi).symm

theorem getElem?_setPeer {t : UdpTunnel} {idx i : ℕ} {new p : PeerEntry}
    (hget : (t.setPeer idx new).mPeers[i]? = some p) :
    (i = idx ∧ p = new) ∨ (i ≠ idx ∧ t.mPeers[i]? = some p) := by
  simp only [setPeer, List.getElem?_set] at hget
  by_cases hi : idx = i
  · subst hi
    simp only [if_true] at hget
    split at hget
    · exact Or.inl ⟨rfl, (Option.some.inj hget).symm⟩
    · cases hget
  · rw [if_neg hi] at hget
    exact Or.inr ⟨Ne.symm hi, hget⟩

theorem Seated.connected_setPeer {t : UdpTunnel} (h : t.Seated)
    {endpoint : UdpEndpoint} {idx i : ℕ} {old new p : PeerEntry}
    (hpeer : t.peer? endpoint = some (idx, old))
    (hp : (t.setPeer idx new).mPeers[i]? = some p) (hpc : p.state = .connected)
    (hnew : new.endpoint = old.endpoint) :
    t.mEndpointToPeerIdx.find p.endpoint = some i := by
  rcases getElem?_setPeer hp with ⟨rfl, rfl⟩ | ⟨-, hp⟩
  · rw [hnew, (h.indexed.mem_endpoints hpeer).2]
    exact (peer?_eq_some.mp hpeer).1
  · exact h.connected i p hp hpc

theorem Seated.pushPeer {t : UdpTunnel} (h : t.Seated) {endpoint : UdpEndpoint}
    (hnew : t.mEndpointToPeerIdx.find endpoint = none) :
    (t.pushPeer endpoint).Seated := by
  refine ⟨h.indexed.pushPeer endpoint, ?_⟩
  intro i p hp hpc
  simp only [UdpTunnel.pushPeer, List.getElem?_append] at hp ⊢
  split at hp
  · have hfind := h.connected i p hp hpc
    have hne : p.endpoint ≠ endpoint := by
      rintro rfl
      rw [hnew] at hfind
      cases hfind
    rwa [PartialMap.find_insert_of_ne _ hne]
  · have hmem := List.mem_of_getElem? hp
    rw [List.mem_singleton] at hmem
    subst hmem
    cases hpc

/-- What a removal leaves of the entries: those behind the gap move down. -/
theorem getElem?_eraseIdx_cases {l : List PeerEntry} {idx i : ℕ} {p : PeerEntry}
    (hp : (l.eraseIdx idx)[i]? = some p) :
    (i < idx ∧ l[i]? = some p) ∨ (idx ≤ i ∧ l[i + 1]? = some p) := by
  rw [List.getElem?_eraseIdx] at hp
  split at hp
  · exact Or.inl ⟨by omega, hp⟩
  · exact Or.inr ⟨by omega, hp⟩

theorem Seated.remove {t : UdpTunnel} (h : t.Seated) {endpoint : UdpEndpoint}
    {idx : ℕ} (hknown : t.mEndpointToPeerIdx.find endpoint = some idx)
    (routes : PartialMap NodeId ℕ) :
    { t with
      remoteNodeIdToPeerIdx := routes
      mPeers := t.mPeers.eraseIdx idx
      mEndpointToPeerIdx := rebuildEndpointIndex (t.mPeers.eraseIdx idx) :
        UdpTunnel }.Seated := by
  have hindexed := indexed_rebuildEndpointIndex { t with
    remoteNodeIdToPeerIdx := routes
    mPeers := t.mPeers.eraseIdx idx
    mEndpointToPeerIdx := rebuildEndpointIndex (t.mPeers.eraseIdx idx) } rfl
  refine ⟨hindexed, ?_⟩
  have hget : t.endpoints[idx]? = some endpoint :=
    (lastIdxOf_eq_some.mp ((h.indexed endpoint).symm.trans hknown)).1
  have hshift : ∀ k p, k ≠ idx → t.mPeers[k]? = some p → p.state = .connected →
      (rebuildEndpointIndex (t.mPeers.eraseIdx idx)).find p.endpoint =
        some (if idx < k then k - 1 else k) := by
    intro k p hk hp hpc
    have hfind := h.connected k p hp hpc
    have hne : p.endpoint ≠ endpoint := by
      intro heq
      rw [heq, hknown] at hfind
      exact hk (Option.some.inj hfind).symm
    have hlast := lastIdxOf_eraseIdx_of_ne hne hget ((h.indexed _).symm.trans hfind)
    rw [endpoints, List.eraseIdx_map] at hlast
    exact (hindexed p.endpoint).trans hlast
  intro i p hp hpc
  rcases getElem?_eraseIdx_cases hp with ⟨hi, hp⟩ | ⟨hi, hp⟩
  · rw [hshift i p (by omega) hp hpc, if_neg (by omega)]
  · rw [hshift (i + 1) p (by omega) hp hpc, if_pos (by omega), Nat.add_sub_cancel]

theorem seated_next {t : UdpTunnel} (h : t.Seated) (e : TunnelEvent) :
    (next machine t e).Seated := by
  have hindexed := indexed_next h.indexed e
  have heffect := effect t e
  generalize next machine t e = t', emit machine t e = out at heffect hindexed ⊢
  cases heffect with
  | hello _ _ hpeer | keepalive _ _ hpeer _ | bye _ _ hpeer =>
      refine ⟨hindexed, fun i p hp hpc ↦ ?_⟩
      exact h.connected_setPeer hpeer hp hpc rfl
  | @maintain now hrun =>
      refine ⟨hindexed, ?_⟩
      intro i p hp hpc
      rw [mPeers_runMaintenance hrun, List.getElem?_map] at hp
      obtain ⟨q, hq, rfl⟩ := Option.map_eq_some_iff.mp hp
      rw [endpoint_maintained, mEndpointToPeerIdx_runMaintenance]
      exact h.connected i q hq (state_maintained_eq_connected.mp hpc).1
  | add hnew => exact h.pushPeer hnew
  | accept hnew =>
      have hseated := h.pushPeer hnew
      exact ⟨hindexed, hseated.connected⟩
  | remove hknown => exact h.remove hknown _
  | _ => exact ⟨hindexed, h.connected⟩

theorem seated_create (initialPeers : List UdpEndpoint) :
    (create initialPeers).Seated := by
  refine ⟨indexed_create initialPeers, ?_⟩
  intro i p hp hpc
  rw [state_create (List.mem_of_getElem? hp)] at hpc
  cases hpc

/-! ## The stored positions and the reference table -/

/-- Every recorded position is that of a connected peer, and the reference table
holds the endpoints of these. -/
structure Routed (t : UdpTunnel) (r : Reference) : Prop where
  seated : t.Seated
  unrouted : ∀ node, t.remoteNodeIdToPeerIdx.find node = none → r.find node = none
  routed : ∀ node i, t.remoteNodeIdToPeerIdx.find node = some i →
    ∃ peer, t.mPeers[i]? = some peer ∧ peer.state = .connected ∧
      r.find node = some peer.endpoint

theorem Routed.routesAs {t : UdpTunnel} {r : Reference} (h : t.Routed r) :
    t.RoutesAs r := by
  rw [routesAs_iff]
  intro node
  cases hfind : t.remoteNodeIdToPeerIdx.find node with
  | none => simp [route, hfind, h.unrouted node hfind]
  | some i =>
      obtain ⟨peer, hget, hstate, href⟩ := h.routed node i hfind
      simp [route, hfind, hget, hstate, href]

/-- Positions that satisfy `P` are forgotten on one side and endpoints that
satisfy `Q` on the other; the remaining positions still name the same peers. -/
theorem Routed.narrow {t t' : UdpTunnel} {r : Reference} (h : t.Routed r)
    (hseated : t'.Seated) (P : ℕ → Prop) (Q : UdpEndpoint → Bool)
    (hroutes : ∀ node i, t'.remoteNodeIdToPeerIdx.find node = some i ↔
      t.remoteNodeIdToPeerIdx.find node = some i ∧ ¬ P i)
    (hentries : ∀ node i peer, t.remoteNodeIdToPeerIdx.find node = some i → ¬ P i →
      t.mPeers[i]? = some peer → peer.state = .connected →
      ∃ peer', t'.mPeers[i]? = some peer' ∧ peer'.state = .connected ∧
        peer'.endpoint = peer.endpoint)
    (hagree : ∀ i peer, t.mPeers[i]? = some peer → peer.state = .connected →
      (P i ↔ Q peer.endpoint = true)) :
    t'.Routed (r.eraseValues Q) := by
  refine ⟨hseated, ?_, ?_⟩
  · intro node hnone
    rw [PartialMap.find_eraseValues]
    cases hfind : t.remoteNodeIdToPeerIdx.find node with
    | none => simp [h.unrouted node hfind]
    | some i =>
        obtain ⟨peer, hget, hstate, href⟩ := h.routed node i hfind
        have hP : P i := by
          by_contra hP
          rw [(hroutes node i).mpr ⟨hfind, hP⟩] at hnone
          cases hnone
        simp [href, (hagree i peer hget hstate).mp hP]
  · intro node i hfind
    obtain ⟨hfind, hP⟩ := (hroutes node i).mp hfind
    obtain ⟨peer, hget, hstate, href⟩ := h.routed node i hfind
    obtain ⟨peer', hget', hstate', heq⟩ := hentries node i peer hfind hP hget hstate
    refine ⟨peer', hget', hstate', ?_⟩
    rw [PartialMap.find_eraseValues_eq_some, heq]
    exact ⟨href, Bool.eq_false_iff.mpr fun hQ ↦ hP ((hagree i peer hget hstate).mpr hQ)⟩

theorem Routed.keep {t t' : UdpTunnel} {r : Reference} (h : t.Routed r)
    (hseated : t'.Seated)
    (hroutes : t'.remoteNodeIdToPeerIdx = t.remoteNodeIdToPeerIdx)
    (hentries : ∀ (i : ℕ) (peer : PeerEntry), t.mPeers[i]? = some peer →
      peer.state = .connected → ∃ peer', t'.mPeers[i]? = some peer' ∧ peer'.state = .connected ∧
        peer'.endpoint = peer.endpoint) :
    t'.Routed r := by
  have hnarrow := h.narrow hseated (fun _ ↦ False) (fun _ ↦ false) (by simp [hroutes])
    (fun _ i peer _ _ ↦ hentries i peer) (by simp)
  rwa [PartialMap.eraseValues_false] at hnarrow

theorem Routed.congr {t t' : UdpTunnel} {r : Reference} (h : t.Routed r)
    (hseated : t'.Seated)
    (hroutes : t'.remoteNodeIdToPeerIdx = t.remoteNodeIdToPeerIdx)
    (hpeers : t'.mPeers = t.mPeers) : t'.Routed r :=
  h.keep hseated hroutes fun _ peer hget hstate ↦
    ⟨peer, by rw [hpeers]; exact hget, hstate, rfl⟩

theorem Routed.eraseValues_absent {t : UdpTunnel} {r : Reference} (h : t.Routed r)
    {endpoint : UdpEndpoint} (hnot : endpoint ∉ t.endpoints) :
    t.Routed (r.eraseValues (fun p ↦ p = endpoint)) := by
  refine h.narrow h.seated (fun _ ↦ False) _ (by simp)
    (fun _ _ peer _ _ hget hstate ↦ ⟨peer, hget, hstate, rfl⟩) ?_
  intro i peer hget _
  simp only [false_iff, decide_eq_true_eq]
  rintro rfl
  apply hnot
  exact List.mem_map_of_mem (List.mem_of_getElem? hget)

theorem exists_getElem?_setPeer {t : UdpTunnel} {endpoint : UdpEndpoint} {idx i : ℕ}
    {old new peer : PeerEntry} (hpeer : t.peer? endpoint = some (idx, old))
    (hget : t.mPeers[i]? = some peer) (hstate : peer.state = .connected)
    (hnew : i = idx → new.state = .connected) (hendpoint : new.endpoint = old.endpoint) :
    ∃ peer', (t.setPeer idx new).mPeers[i]? = some peer' ∧ peer'.state = .connected ∧
      peer'.endpoint = peer.endpoint := by
  by_cases hi : i = idx
  · subst hi
    have hold := (peer?_eq_some.mp hpeer).2
    obtain rfl : old = peer := Option.some.inj (hold.symm.trans hget)
    refine ⟨new, ?_, hnew rfl, hendpoint⟩
    rw [setPeer, List.getElem?_set_self (List.getElem?_eq_some_iff.mp hold).1]
  · refine ⟨peer, ?_, hstate, rfl⟩
    rw [setPeer, List.getElem?_set_ne (Ne.symm hi)]
    exact hget

/-- No recorded position lies behind a peer that is being removed. -/
def KeepsPositions (t : UdpTunnel) : TunnelEvent → Prop
  | .removePeer endpoint => ∀ idx node i,
      t.mEndpointToPeerIdx.find endpoint = some idx →
      t.remoteNodeIdToPeerIdx.find node = some i → i ≤ idx
  | _ => True

/-! ### One step -/

theorem Routed.bye {t : UdpTunnel} {r : Reference} (h : t.Routed r)
    {sender : UdpEndpoint} {idx : ℕ} {peer new : PeerEntry}
    (hpeer : t.peer? sender = some (idx, peer)) {t' : UdpTunnel} (hseated : t'.Seated)
    (hroutes : t'.remoteNodeIdToPeerIdx = erasePeerNodeIds t.remoteNodeIdToPeerIdx idx)
    (hpeers : t'.mPeers = (t.setPeer idx new).mPeers)
    (hnew : new.endpoint = peer.endpoint) :
    t'.Routed (r.eraseValues (fun p ↦ p = sender)) := by
  apply h.narrow hseated (fun i ↦ i = idx) _
  · intro node i
    rw [hroutes, erasePeerNodeIds, PartialMap.find_eraseValues_eq_some,
      decide_eq_false_iff_not]
  · intro node i q _ hi hget hstate
    rw [hpeers]
    exact exists_getElem?_setPeer hpeer hget hstate (fun heq ↦ absurd heq hi) hnew
  · intro i q hget hstate
    have hfind := (peer?_eq_some.mp hpeer).1
    have hq := h.seated.connected i q hget hstate
    rw [decide_eq_true_eq]
    constructor
    · rintro rfl
      have hq' := (peer?_eq_some.mp hpeer).2
      obtain rfl : peer = q := Option.some.inj (hq'.symm.trans hget)
      exact (h.seated.indexed.mem_endpoints hpeer).2
    · rintro rfl
      exact Option.some.inj (hq.symm.trans hfind)

theorem Routed.maintain {t : UdpTunnel} {r : Reference} (h : t.Routed r)
    {now : TimePoint} (hrun : t.isRunning = true)
    (hseated : (t.runMaintenance now).1.Seated) :
    (t.runMaintenance now).1.Routed (r.eraseValues (t.timesOut now)) := by
  refine h.narrow hseated (fun i ↦ ∃ peer, t.mPeers[i]? = some peer ∧ TimedOut now peer)
    _ ?_ ?_ ?_
  · intro node i
    rw [find_routes_runMaintenance hrun]
    simp
  · intro node i peer _ halive hget hstate
    have halive' : ¬ TimedOut now peer := fun hlate ↦ halive ⟨peer, hget, hlate⟩
    refine ⟨peer, ?_, hstate, rfl⟩
    rw [mPeers_runMaintenance hrun, List.getElem?_map, hget, Option.map_some,
      maintained_of_alive hstate halive']
  · intro i peer hget hstate
    simp only [timesOut, List.any_eq_true, decide_eq_true_eq]
    constructor
    · rintro ⟨late, hlate, htimedOut⟩
      obtain rfl : late = peer := Option.some.inj (hlate.symm.trans hget)
      exact ⟨late, List.mem_of_getElem? hget, htimedOut, rfl⟩
    · rintro ⟨late, hmem, htimedOut, heq⟩
      -- a connected entry of the same endpoint stands at the same position
      obtain ⟨j, hj⟩ := List.getElem?_of_mem hmem
      obtain rfl := h.seated.position_unique hj htimedOut.1 hget hstate heq
      exact ⟨late, hj, htimedOut⟩

theorem Routed.remove {t : UdpTunnel} {r : Reference} (h : t.Routed r)
    {endpoint : UdpEndpoint} {idx : ℕ}
    (hknown : t.mEndpointToPeerIdx.find endpoint = some idx)
    (hkeeps : t.KeepsPositions (.removePeer endpoint)) {t' : UdpTunnel}
    (hseated : t'.Seated)
    (hroutes : t'.remoteNodeIdToPeerIdx = erasePeerNodeIds t.remoteNodeIdToPeerIdx idx)
    (hpeers : t'.mPeers = t.mPeers.eraseIdx idx) :
    t'.Routed (r.eraseValues (fun p ↦ p = endpoint)) := by
  apply h.narrow hseated (fun i ↦ i = idx) _
  · intro node i
    rw [hroutes, erasePeerNodeIds, PartialMap.find_eraseValues_eq_some,
      decide_eq_false_iff_not]
  · intro node i peer hfind hi hget hstate
    have hle := hkeeps idx node i hknown hfind
    refine ⟨peer, ?_, hstate, rfl⟩
    rw [hpeers, List.getElem?_eraseIdx_of_lt (by omega)]
    exact hget
  · intro i peer hget hstate
    have hfind := h.seated.connected i peer hget hstate
    rw [decide_eq_true_eq]
    constructor
    · rintro rfl
      obtain ⟨peer', hget', heq⟩ := h.seated.indexed.getElem? hknown
      obtain rfl : peer = peer' := Option.some.inj (hget.symm.trans hget')
      exact heq
    · rintro rfl
      exact Option.some.inj (hfind.symm.trans hknown)

theorem Routed.ignored {t : UdpTunnel} {r : Reference} (h : t.Routed r)
    {now : TimePoint} {sender : UdpEndpoint} {datagram : Datagram}
    {message : LocalMessage} (hmessage : messageOf datagram = some message)
    (hignored : t.Ignored sender message) :
    t.Routed (observe r t (.receive now sender datagram)) := by
  simp only [observe, hmessage]
  have hclosed : message.type ≠ .tunnelHello → message.type ≠ .tunnelBye →
      t.isConnected sender = false := by
    intro hhello hbye
    rw [Bool.eq_false_iff]
    intro hconnected
    obtain ⟨idx, peer, hpeer, hstate⟩ := isConnected_eq_true.mp hconnected
    exact hignored.other hhello hbye idx peer hpeer hstate
  cases htype : message.type with
  | tunnelHello | tunnelKeepalive => exact h
  | tunnelBye =>
      exact h.eraseValues_absent
        (h.seated.indexed.peer?_eq_none.mp (hignored.bye htype))
  | _ =>
      have hfalse := hclosed (by simp [htype]) (by simp [htype])
      simpa [hfalse] using h

theorem observe_data {r : Reference} {t : UdpTunnel} {now : TimePoint}
    {sender : UdpEndpoint} {datagram : Datagram} {message : LocalMessage}
    (hmessage : messageOf datagram = some message)
    (hcontrol : message.type.isControl = false) (htype : message.type ≠ .byebye)
    (hconnected : t.isConnected sender = true) :
    observe r t (.receive now sender datagram) = r.emplace message.fromNode sender := by
  simp only [observe, hmessage, hconnected, if_true]
  cases h : message.type <;> simp [h, TunnelMessageType.isControl] at hcontrol htype ⊢

theorem routed_next {t : UdpTunnel} {r : Reference} (h : t.Routed r)
    {e : TunnelEvent} (hkeeps : t.KeepsPositions e) :
    (next machine t e).Routed (observe r t e) := by
  have hseated := seated_next h.seated e
  have heffect := effect t e
  generalize next machine t e = t', emit machine t e = out at heffect hseated ⊢
  cases heffect with
  | hello hmessage htype hpeer =>
      simp only [observe, hmessage, htype]
      apply h.keep hseated rfl
      intro i p hget hstate
      exact exists_getElem?_setPeer hpeer hget hstate (fun _ ↦ rfl) rfl
  | keepalive hmessage htype hpeer hconnected =>
      simp only [observe, hmessage, htype]
      apply h.keep hseated rfl
      intro i p hget hstate
      exact exists_getElem?_setPeer hpeer hget hstate (fun _ ↦ hconnected) rfl
  | unknown hmessage htype =>
      simp only [observe, hmessage, htype]
      exact h.congr hseated rfl rfl
  | bye hmessage htype hpeer =>
      simp only [observe, hmessage, htype]
      exact h.bye hpeer hseated rfl rfl rfl
  | leave hmessage htype hpeer hstate =>
      simp only [observe, hmessage, htype, isConnected_of_peer? hpeer hstate, if_true]
      refine ⟨hseated, ?_, ?_⟩
      · intro node hnone
        rw [PartialMap.find_erase] at hnone ⊢
        split at hnone
        · rw [if_pos ‹_›]
        · rw [if_neg ‹_›]
          exact h.unrouted node hnone
      · intro node i hfind
        obtain ⟨hne, hfind⟩ := (PartialMap.find_erase_eq_some ..).mp hfind
        rw [PartialMap.find_erase_of_ne _ hne]
        exact h.routed node i hfind
  | @data _ _ _ message idx peer hmessage hcontrol htype hpeer hstate =>
      rw [observe_data hmessage hcontrol htype (isConnected_of_peer? hpeer hstate)]
      have hendpoint := (h.seated.indexed.mem_endpoints hpeer).2
      have hfree : t.remoteNodeIdToPeerIdx.find message.fromNode = none ↔
          r.find message.fromNode = none := by
        refine ⟨h.unrouted _, fun hnone ↦ ?_⟩
        rw [Option.eq_none_iff_forall_ne_some]
        intro i hfind
        obtain ⟨_, _, _, href⟩ := h.routed _ i hfind
        rw [hnone] at href
        cases href
      refine ⟨hseated, ?_, ?_⟩
      · intro node hnone
        simp only [PartialMap.find_emplace, hfree] at hnone ⊢
        split at hnone
        · cases hnone
        · rw [if_neg ‹_›]
          exact h.unrouted node hnone
      · intro node i hfind
        simp only [PartialMap.find_emplace, hfree] at hfind ⊢
        split at hfind
        · obtain rfl := Option.some.inj hfind
          rw [if_pos ‹_›, ← hendpoint]
          exact ⟨peer, (peer?_eq_some.mp hpeer).2, hstate, rfl⟩
        · rw [if_neg ‹_›]
          exact h.routed node i hfind
  | ignored hmessage hignored => exact h.ignored hmessage hignored
  | maintain hrun =>
      simp only [observe, hrun, if_true]
      exact h.maintain hrun hseated
  | stopped hrun =>
      simpa [observe, hrun] using h
  | add hnew | accept hnew =>
      refine h.keep hseated rfl fun i p hget hstate ↦ ⟨p, ?_, hstate, rfl⟩
      simp only [pushPeer]
      rw [List.getElem?_append_left (List.getElem?_eq_some_iff.mp hget).1]
      exact hget
  | remove hknown => exact h.remove hknown hkeeps hseated rfl rfl
  | removeUnknown hnew =>
      apply h.eraseValues_absent
      apply h.seated.indexed.find_eq_none.mp
      exact hnew
  | addKnown => exact h
  | acceptKnown | reject | forward => exact h.congr hseated rfl rfl

/-- Closing a gap in front of a recorded position redirects or drops what is
sent to that node. -/
theorem not_routesAs_next {t : UdpTunnel} {r : Reference} (h : t.Routed r)
    {e : TunnelEvent} (hbreaks : ¬ t.KeepsPositions e) :
    ¬ (next machine t e).RoutesAs (observe r t e) := by
  cases e with
  | removePeer endpoint =>
      simp only [KeepsPositions, not_forall, not_le] at hbreaks
      obtain ⟨idx, node, i, hknown, hfind, hlt⟩ := hbreaks
      obtain ⟨peer, hget, hstate, href⟩ := h.routed node i hfind
      have hne : peer.endpoint ≠ endpoint := by
        intro heq
        have hfind' := h.seated.connected i peer hget hstate
        rw [heq, hknown] at hfind'
        apply hlt.ne
        exact Option.some.inj hfind'
      rw [routesAs_iff]
      intro hsame
      have hroute := hsame node
      have hreference : (observe r t (.removePeer endpoint)).find node =
          some peer.endpoint :=
        (PartialMap.find_eraseValues_eq_some ..).mpr ⟨href, by simpa using hne⟩
      have hkept : (erasePeerNodeIds t.remoteNodeIdToPeerIdx idx).find node = some i :=
        (PartialMap.find_eraseValues_eq_some ..).mpr ⟨hfind, by simpa using hlt.ne'⟩
      have hshifted : (t.mPeers.eraseIdx idx)[i]? = t.mPeers[i + 1]? :=
        List.getElem?_eraseIdx_of_ge hlt.le
      rw [hreference] at hroute
      simp only [next, machine, removePeer, hknown, route, hkept, hshifted] at hroute
      cases hget' : t.mPeers[i + 1]? with
      | none => simp [hget'] at hroute
      | some other =>
          by_cases hother : other.state = .connected
          · have heq : other.endpoint = peer.endpoint := by
              simpa [hget', hother] using hroute
            have hpos := h.seated.position_unique hget' hother hget hstate heq
            omega
          · simp [hget', hother] at hroute
  | _ => exact absurd trivial hbreaks

/-! ## Every run -/

theorem routed_create (initialPeers : List UdpEndpoint) :
    (create initialPeers).Routed PartialMap.empty := by
  refine ⟨seated_create initialPeers, fun _ _ ↦ rfl, ?_⟩
  intro node i hfind
  rw [remoteNodeIdToPeerIdx_create] at hfind
  cases hfind

/-- A run routes as the reference table does exactly when none of its steps
removes a peer in front of a recorded position. -/
theorem throughout_routesAs_iff (initialPeers : List UdpEndpoint)
    (es : List TunnelEvent) :
    Throughout (monitored machine observe) (fun p ↦ p.1.RoutesAs p.2)
        (create initialPeers, PartialMap.empty) es ↔
      Along machine KeepsPositions (create initialPeers) es := by
  rw [← along_monitored machine observe KeepsPositions
    (create initialPeers, PartialMap.empty)]
  refine throughout_iff_along (monitored machine observe) (I := fun p ↦ p.1.Routed p.2)
    (fun _ h ↦ h.routesAs) (fun _ _ h hkeeps ↦ routed_next h hkeeps) ?_
    (routed_create initialPeers) es
  intro p e h hroutes
  by_contra hbreaks
  exact not_routesAs_next h hbreaks hroutes

/-! ## Removing the peer in front -/

/-- Three connected peers; node `default` is heard of behind the second. -/
def threePeers : List TunnelEvent :=
  [.receive 0 (localhost 1) (controlDatagram .tunnelHello),
    .receive 0 (localhost 2) (controlDatagram .tunnelHello),
    .receive 0 (localhost 3) (controlDatagram .tunnelHello),
    .receive 0 (localhost 2) (controlDatagram .broadcast)]

/-- Removing the first peer hands the second peer's traffic to the third. -/
theorem not_throughout_routesAs :
    ¬ Throughout (monitored machine observe) (fun p ↦ p.1.RoutesAs p.2)
      (create [localhost 1, localhost 2, localhost 3], PartialMap.empty)
      (threePeers ++ [.removePeer (localhost 1)]) := by
  intro h
  have hroute := routesAs_iff.mp h.last default
  revert hroute
  decide +kernel

end UdpTunnel

end LinkExtender
