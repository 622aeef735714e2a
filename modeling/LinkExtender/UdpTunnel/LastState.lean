import LinkExtender.DedupCache.Calls
import LinkExtender.UdpTunnel.Session
import LinkExtender.UdpTunnel.Suppression

/-!
# The state that the peers have

A broadcast of a node is suppressed when the cache remembers its payload.  The cache
keeps a time of its own for each payload, so it may remember a state that the node has
left and come back to, while the peers still have the state in between.
-/

namespace LinkExtender

namespace UdpTunnel

open EventMachine History

/-- The endpoints that broadcasts are sent to. -/
def connectedPeers (t : UdpTunnel) : Finset UdpEndpoint :=
  ((t.mPeers.filter (fun peer ↦ peer.state = .connected)).map PeerEntry.endpoint).toFinset

/-- The time and the payload of a call of `forward` with a broadcast of `node`. -/
def stateCall? (node : NodeId) : TunnelEvent → Option (TimePoint × List UInt8)
  | .forward now .broadcast fromNode message _ =>
      if fromNode = node then some (now, message) else none
  | _ => none

def stateCalls (node : NodeId) (past : List TunnelEvent) : List (TimePoint × List UInt8) :=
  past.filterMap (stateCall? node)

/-- The payload of a datagram that is a broadcast of `node`. -/
def stateOf (node : NodeId) (bytes : List UInt8) : Option (List UInt8) :=
  match decapsulate (MessageBuffer.ofBytes bytes) with
  | some (context, payload) =>
      if context.type = .broadcast ∧ context.fromNode = node then
        some (payload.bytes.take context.size)
      else none
  | none => none

/-- The payloads of `node` that are broadcast to `endpoint`, in order. -/
def statesTo (node : NodeId) (endpoint : UdpEndpoint) (out : List TunnelOutput) :
    List (List UInt8) :=
  (sentTo endpoint out).filterMap (stateOf node)

/-- The cache has an entry of the payload that is younger than the window. -/
def Remembers (t : UdpTunnel) (now : TimePoint) (node : NodeId) (message : List UInt8) : Prop :=
  ∃ entry ∈ t.mDedupCache.mEntries,
    entry.key = ⟨TunnelMessageType.broadcast.toUInt8, node, fnv1a64 message⟩ ∧
      now - entry.timestamp < t.mDedupCache.mWindow

/-- After a call of `forward` its payload is what every connected peer was sent last. -/
def ArrivesLast (node : NodeId) (t : UdpTunnel) (past : List TunnelEvent)
    (e : TunnelEvent) : Prop :=
  ∀ call ∈ stateCall? node e, ∀ endpoint ∈ (run machine t past).connectedPeers,
    (statesTo node endpoint (outputs machine t (past ++ [e]))).getLast? = some call.2

/-- A call with another payload than the call before it finds no young entry of it. -/
def SeesChange (node : NodeId) (t : UdpTunnel) (past : List TunnelEvent)
    (e : TunnelEvent) : Prop :=
  ∀ call ∈ stateCall? node e, ∀ previous ∈ (stateCalls node past).getLast?,
    previous.2 ≠ call.2 → ¬ (run machine t past).Remembers call.1 node call.2

/-- The same peers are connected after the event. -/
def KeepsPeers (t : UdpTunnel) (e : TunnelEvent) : Prop :=
  (next machine t e).connectedPeers = t.connectedPeers

instance (t : UdpTunnel) (now : TimePoint) (node : NodeId) (message : List UInt8) :
    Decidable (t.Remembers now node message) :=
  inferInstanceAs (Decidable (∃ _ ∈ _, _))
instance (node : NodeId) (t : UdpTunnel) (past : List TunnelEvent) (e : TunnelEvent) :
    Decidable (ArrivesLast node t past e) :=
  inferInstanceAs (Decidable (∀ _ ∈ _, _))
instance (node : NodeId) (t : UdpTunnel) (past : List TunnelEvent) (e : TunnelEvent) :
    Decidable (SeesChange node t past e) :=
  inferInstanceAs (Decidable (∀ _ ∈ _, _))
instance (t : UdpTunnel) (e : TunnelEvent) : Decidable (t.KeepsPeers e) :=
  inferInstanceAs (Decidable (_ = _))

/-! ## What one step sends -/

theorem statesTo_append (node : NodeId) (endpoint : UdpEndpoint) (xs ys : List TunnelOutput) :
    statesTo node endpoint (xs ++ ys) = statesTo node endpoint xs ++ statesTo node endpoint ys := by
  simp [statesTo, sentTo]

theorem mem_statesTo {node : NodeId} {endpoint : UdpEndpoint} {out : List TunnelOutput}
    {state : List UInt8} :
    state ∈ statesTo node endpoint out ↔
      ∃ bytes, .send endpoint bytes ∈ out ∧ stateOf node bytes = some state := by
  simp only [statesTo, List.mem_filterMap, mem_sentTo]

/-- Nothing but a call with a broadcast of the node sends a state of it. -/
theorem statesTo_emit_eq_nil {t : UdpTunnel} {e : TunnelEvent} {node : NodeId}
    (he : stateCall? node e = none) (endpoint : UdpEndpoint) :
    statesTo node endpoint (emit machine t e) = [] := by
  apply List.eq_nil_iff_forall_not_mem.mpr
  intro state hmem
  obtain ⟨bytes, hsend, hstate⟩ := mem_statesTo.mp hmem
  unfold stateOf at hstate
  split at hstate
  · rename_i context payload hread
    obtain ⟨⟨htype, hfrom⟩, -⟩ := Option.ite_none_right_eq_some.mp hstate
    obtain ⟨type, rest, rfl, horigin⟩ := head_of_send_mem_emit hsend
    obtain ⟨tail, hhead⟩ := MessageBuffer.head_ofBytes type.toUInt8 rest
    have hcode := type_of_decapsulate hread hhead
    rw [TunnelMessageType.ofUInt8_toUInt8, htype] at hcode
    subst hcode
    rcases horigin with h | h | ⟨h, -⟩ | ⟨now, fromNode, message, toNode, rfl⟩
    · cases h
    · cases h
    · cases h
    · obtain ⟨-, hsame, -⟩ := decapsulate_of_forward hsend hread
      simp [stateCall?, ← hsame, hfrom] at he
  · cases hstate

theorem forward_broadcast (t : UdpTunnel) (now : TimePoint) (node : NodeId)
    (message : List UInt8) (toNode : Option NodeId) :
    t.forward now .broadcast node message toNode =
      t.forward now .broadcast node message none := rfl

theorem stateOf_envelope {node : NodeId} {message : List UInt8}
    (hfits : encapsulatedSize .broadcast message.length ≤ kMaxMessageSize) :
    stateOf node (tunnelHeader .broadcast node none message.length ++ message) =
      some message := by
  have hlen : (tunnelHeader .broadcast node none message.length ++ message).length ≤
      kMaxMessageSize := by
    rwa [List.length_append, length_tunnelHeader rfl]
  obtain ⟨buffer, hbuffer, hmessage⟩ :=
    @exists_messageOf_header ⟨_, hlen⟩ .broadcast node none message rfl rfl
  obtain ⟨⟨context, payload⟩, hread, heq⟩ := Option.map_eq_some_iff.mp hmessage
  obtain ⟨htype, hfrom, rfl, hsize, -⟩ := LocalMessage.mk.inj heq
  unfold stateOf
  rw [hread]
  simp only at htype hfrom hsize
  simp only [htype, hfrom, hsize, and_self, if_true, hbuffer]

/-- A call that passes the filter sends its payload to each connected peer, and nothing
else of the node. -/
theorem statesTo_forward {t : UdpTunnel} {now : TimePoint} {node : NodeId}
    {message : List UInt8} {toNode : Option NodeId}
    (hfits : encapsulatedSize .broadcast message.length ≤ kMaxMessageSize)
    (hpassed : ¬ t.Suppressed now .broadcast node message)
    {endpoint : UdpEndpoint} (hpeer : endpoint ∈ t.connectedPeers)
    (sent : List (List UInt8)) :
    (sent ++ statesTo node endpoint
      (t.forward now .broadcast node message toNode).2).getLast? = some message := by
  have hsends := @forward_snd_of_fits t now .broadcast node message none hpassed rfl hfits
  have hall : ∀ state ∈ statesTo node endpoint (t.forward now .broadcast node message none).2,
      state = message := by
    intro state hmem
    obtain ⟨bytes, hsend, hstate⟩ := mem_statesTo.mp hmem
    rw [hsends] at hsend
    obtain ⟨dest, -, heq⟩ := List.mem_map.mp hsend
    obtain ⟨-, rfl⟩ := TunnelOutput.send.inj heq
    rw [stateOf_envelope hfits] at hstate
    exact (Option.some.inj hstate).symm
  have hsome : message ∈ statesTo node endpoint (t.forward now .broadcast node message none).2 := by
    refine mem_statesTo.mpr ⟨_, ?_, stateOf_envelope hfits⟩
    rw [hsends]
    exact List.mem_map_of_mem (List.mem_toFinset.mp hpeer)
  rw [forward_broadcast, List.getLast?_append_of_ne_nil _ (List.ne_nil_of_mem hsome)]
  have hlast := List.getLast?_eq_some_getLast (List.ne_nil_of_mem hsome)
  rw [hlast, hall _ (List.getLast_mem _)]

/-! ## Runs -/

theorem suppressed_iff_remembers {t : UdpTunnel} (h : t.mDedupCache.WellFormed)
    {now : TimePoint} {node : NodeId} {message : List UInt8} :
    t.Suppressed now .broadcast node message ↔ t.Remembers now node message := by
  rw [suppressed_iff]
  exact (and_iff_right rfl).trans (DedupCache.isDuplicateKey_eq_true_iff h)

/-- The call of the cache that an event makes. -/
def dedupCall? : TunnelEvent → Option DedupCall
  | .forward now type fromNode message _ =>
      if type.isDeduplicated then some ⟨now, type.toUInt8, fromNode, message⟩ else none
  | _ => none

theorem mDedupCache_run (initialPeers : List UdpEndpoint) (es : List TunnelEvent) :
    (run machine (create initialPeers) es).mDedupCache =
      run DedupCache.machine (DedupCache.create kDedupCacheCapacity kDedupWindow)
        (es.filterMap dedupCall?) := by
  induction es using List.reverseRecOn with
  | nil => exact mDedupCache_create initialPeers
  | append_singleton es e ih =>
      rw [run_concat, List.filterMap_append, run_append, ← ih]
      cases e with
      | forward now type fromNode message toNode =>
          rw [mDedupCache_next_of_callOf_eq_some rfl, cacheAfter]
          cases hdedup : type.isDeduplicated with
          | false => simp [dedupCall?, hdedup]
          | true =>
              simp only [dedupCall?, hdedup, if_true, List.filterMap_cons, List.filterMap_nil]
              rfl
      | _ => exact mDedupCache_next_of_callOf_eq_none rfl

/-- What the cache remembers, told from the calls that were made. -/
theorem remembers_iff (initialPeers : List UdpEndpoint) (es : List TunnelEvent)
    (now : TimePoint) (node : NodeId) (message : List UInt8) :
    (run machine (create initialPeers) es).Remembers now node message ↔
      DedupCache.UsedWithin kDedupCacheCapacity (es.filterMap dedupCall?)
          ⟨TunnelMessageType.broadcast.toUInt8, node, fnv1a64 message⟩ ∧
        ∃ t₀, DedupCache.AnchoredAt kDedupCacheCapacity kDedupWindow
            ⟨TunnelMessageType.broadcast.toUInt8, node, fnv1a64 message⟩ t₀
            (es.filterMap dedupCall?) ∧ now - t₀ < kDedupWindow := by
  have hlru := DedupCache.lru_run (by decide : 1 ≤ kDedupCacheCapacity) kDedupWindow
    (es.filterMap dedupCall?)
  rw [Remembers, mDedupCache_run, hlru.window]
  exact DedupCache.exists_entry_iff (by decide) kDedupWindow _ now _

theorem stateCalls_concat (node : NodeId) (past : List TunnelEvent) (e : TunnelEvent) :
    stateCalls node (past ++ [e]) = stateCalls node past ++ (stateCall? node e).toList := by
  rw [stateCalls, List.filterMap_append]
  cases hcall : stateCall? node e <;> simp [stateCalls, hcall]

/-- What has not been called with a broadcast of the node has none to remember. -/
theorem not_suppressed_of_stateCalls_eq_nil {initialPeers : List UdpEndpoint}
    {es : List TunnelEvent} {node : NodeId} (hnone : stateCalls node es = [])
    (now : TimePoint) (message : List UInt8) :
    ¬ (run machine (create initialPeers) es).Suppressed now .broadcast node message := by
  intro hdropped
  have hstate := run_monitored_fst machine recordCall (create initialPeers, []) es
  obtain ⟨c, hc, -, -, -, htype, hfrom, -⟩ :=
    exists_call_of_dropped (e := .forward now .broadcast node message none)
      (d := ⟨_, now, .broadcast, node, message, none⟩) (accounted_run initialPeers es) rfl
      (by rw [Call.Dropped, hstate]; exact hdropped)
  have hcall := List.filterMap_eq_nil_iff.mp hnone _ (mem_recorded hc)
  simp only at htype hfrom
  simp [stateCall?, htype, hfrom] at hcall

theorem wellFormed_run (initialPeers : List UdpEndpoint) (es : List TunnelEvent) :
    (run machine (create initialPeers) es).mDedupCache.WellFormed := by
  rw [mDedupCache_run]
  exact (DedupCache.lru_run (by decide) kDedupWindow _).wellFormed

theorem connectedPeers_run {t : UdpTunnel} {es : List TunnelEvent}
    (h : Along machine KeepsPeers t es) : (run machine t es).connectedPeers = t.connectedPeers := by
  induction es using List.reverseRecOn with
  | nil => rfl
  | append_singleton past e ih =>
      obtain ⟨hpast, he⟩ := (along_concat ..).mp h
      rw [run_concat, he, ih hpast]

theorem exists_forward_of_stateCall? {node : NodeId} {e : TunnelEvent}
    {call : TimePoint × List UInt8} (h : stateCall? node e = some call) :
    ∃ toNode, e = .forward call.1 .broadcast node call.2 toNode := by
  unfold stateCall? at h
  split at h
  · obtain ⟨rfl, heq⟩ := Option.ite_none_right_eq_some.mp h
    obtain rfl := Option.some.inj heq
    exact ⟨_, rfl⟩
  · cases h

/-- As long as all states have arrived, what was sent last is what was called last. -/
theorem getLast?_statesTo {node : NodeId} {t : UdpTunnel} {past : List TunnelEvent}
    (hpeers : Along machine KeepsPeers t past) (harrived : Each (ArrivesLast node t) past)
    {endpoint : UdpEndpoint} (hpeer : endpoint ∈ t.connectedPeers) :
    (statesTo node endpoint (outputs machine t past)).getLast? =
      (stateCalls node past).getLast?.map Prod.snd := by
  induction past using List.reverseRecOn with
  | nil => rfl
  | append_singleton past e ih =>
      obtain ⟨hpast, he⟩ := (along_concat ..).mp hpeers
      obtain ⟨hearlier, harrives⟩ := each_concat.mp harrived
      rw [stateCalls_concat]
      cases hcall : stateCall? node e with
      | none =>
          rw [outputs_concat, statesTo_append, statesTo_emit_eq_nil hcall, List.append_nil]
          simpa only [Option.toList_none, List.append_nil] using ih hpast hearlier
      | some call =>
          rw [harrives call hcall endpoint (by rwa [connectedPeers_run hpast])]
          simp

theorem stateCall?_forward (node : NodeId) (now : TimePoint) (message : List UInt8)
    (toNode : Option NodeId) :
    stateCall? node (.forward now .broadcast node message toNode) = some (now, message) :=
  if_pos rfl

/-- A call that passes the filter arrives last, whatever was sent before. -/
theorem arrivesLast_of_passed {node : NodeId} {t : UdpTunnel} {past : List TunnelEvent}
    {now : TimePoint} {message : List UInt8} (toNode : Option NodeId)
    (hfits : encapsulatedSize .broadcast message.length ≤ kMaxMessageSize)
    (hpassed : ¬ (run machine t past).Suppressed now .broadcast node message) :
    ArrivesLast node t past (.forward now .broadcast node message toNode) := by
  intro call hcall endpoint hmem
  obtain rfl := Option.some.inj ((stateCall?_forward node now message toNode).symm.trans hcall)
  rw [outputs_concat, statesTo_append]
  exact statesTo_forward hfits hpassed hmem _

/-- A call that is dropped arrives last if it repeats the call before it. -/
theorem arrivesLast_iff_of_dropped {node : NodeId} {t : UdpTunnel}
    (hpeer : t.connectedPeers.Nonempty) {past : List TunnelEvent}
    (hpeers : Along machine KeepsPeers t past) (harrived : Each (ArrivesLast node t) past)
    {now : TimePoint} {message : List UInt8} (toNode : Option NodeId)
    (hdropped : (run machine t past).Suppressed now .broadcast node message)
    {previous : TimePoint × List UInt8}
    (hprevious : (stateCalls node past).getLast? = some previous) :
    ArrivesLast node t past (.forward now .broadcast node message toNode) ↔
      previous.2 = message := by
  have hsilent : outputs machine t (past ++ [.forward now .broadcast node message toNode]) =
      outputs machine t past := by
    rw [outputs_concat]
    simp only [emit, machine, forward_snd, hdropped, if_true, List.append_nil]
  have hlast {endpoint : UdpEndpoint} (hmem : endpoint ∈ t.connectedPeers) :
      (statesTo node endpoint (outputs machine t past)).getLast? = some previous.2 := by
    rw [getLast?_statesTo hpeers harrived hmem, hprevious]
    rfl
  unfold ArrivesLast
  rw [connectedPeers_run hpeers, hsilent, stateCall?_forward]
  constructor
  · intro harrives
    obtain ⟨endpoint, hmem⟩ := hpeer
    exact Option.some.inj ((hlast hmem).symm.trans (harrives _ rfl endpoint hmem))
  · rintro rfl call ⟨rfl⟩ endpoint hmem
    exact hlast hmem

/-- The state of each call arrives last exactly when the calls that change the state
find no young entry of it in the cache. -/
theorem each_arrivesLast_iff (initialPeers : List UdpEndpoint) (node : NodeId)
    -- what happens before the first call
    (before : List TunnelEvent) (hbefore : stateCalls node before = [])
    (t : UdpTunnel) (ht : t = run machine (create initialPeers) before)
    (hpeer : t.connectedPeers.Nonempty)
    -- the calls, and whatever happens between them
    (es : List TunnelEvent) (hpeers : Along machine KeepsPeers t es)
    (hfits : ∀ call ∈ stateCalls node es,
      encapsulatedSize .broadcast call.2.length ≤ kMaxMessageSize) :
    Each (ArrivesLast node t) es ↔ Each (SeesChange node t) es := by
  induction es using List.reverseRecOn with
  | nil => exact iff_of_true (each_nil _) (each_nil _)
  | append_singleton past e ih =>
      obtain ⟨hpast, he⟩ := (along_concat ..).mp hpeers
      rw [stateCalls_concat, List.forall_mem_append] at hfits
      rw [each_concat, each_concat, ← ih hpast hfits.1]
      refine and_congr_right fun harrived ↦ ?_
      have hrun : run machine t past = run machine (create initialPeers) (before ++ past) := by
        rw [ht, run_append]
      have hmemory := wellFormed_run initialPeers (before ++ past)
      have hnew := @not_suppressed_of_stateCalls_eq_nil initialPeers (before ++ past) node
      rw [← hrun] at hmemory hnew
      cases hcall : stateCall? node e with
      | none => simp [ArrivesLast, SeesChange, hcall]
      | some call =>
          obtain ⟨toNode, rfl⟩ := exists_forward_of_stateCall? hcall
          have hfit := hfits.2 call (by simp [hcall])
          simp only [SeesChange, hcall, Option.mem_some_iff, forall_eq',
            ← suppressed_iff_remembers hmemory]
          by_cases hdropped :
              (run machine t past).Suppressed call.1 .broadcast node call.2
          · obtain ⟨previous, hprevious⟩ :
                ∃ previous, (stateCalls node past).getLast? = some previous := by
              apply Option.ne_none_iff_exists'.mp
              intro hnone
              refine hnew ?_ call.1 call.2 hdropped
              rw [stateCalls, List.filterMap_append]
              exact List.append_eq_nil_iff.mpr ⟨hbefore, List.getLast?_eq_none_iff.mp hnone⟩
            rw [arrivesLast_iff_of_dropped hpeer hpast harrived toNode hdropped hprevious]
            simp only [hprevious, hdropped, Option.mem_some_iff, forall_eq', not_true_eq_false,
              imp_false, not_not]
          · exact iff_of_true (arrivesLast_of_passed toNode hfit hdropped)
              (fun _ _ _ ↦ hdropped)

/-- A node changes its state and changes it back once the window is over. -/
theorem each_arrivesLast_backLater :
    Each (ArrivesLast default (run machine (create [localhost 1])
        [.receive 0 (localhost 1) (controlDatagram .tunnelHello)]))
      [.forward 0 .broadcast default [1] none,
        .forward (milliseconds 10) .broadcast default [2] none,
        .forward (milliseconds 50) .broadcast default [1] none] :=
  (each_arrivesLast_iff [localhost 1] default
    [.receive 0 (localhost 1) (controlDatagram .tunnelHello)] rfl _ rfl (by decide +kernel)
    _ (by decide +kernel) (by decide +kernel)).mpr (by decide +kernel)

/-- Twenty milliseconds are too early: the peer is left with the state in between. -/
theorem not_each_arrivesLast_backAtOnce :
    (localhost 1 ∈ (run machine (create [localhost 1])
        [.receive 0 (localhost 1) (controlDatagram .tunnelHello)]).connectedPeers ∧
      fnv1a64 [1] ≠ fnv1a64 [2]) ∧
    Along machine KeepsPeers (run machine (create [localhost 1])
        [.receive 0 (localhost 1) (controlDatagram .tunnelHello)])
      [.forward 0 .broadcast default [1] none,
        .forward (milliseconds 10) .broadcast default [2] none,
        .forward (milliseconds 20) .broadcast default [1] none] ∧
    ¬ Each (ArrivesLast default (run machine (create [localhost 1])
        [.receive 0 (localhost 1) (controlDatagram .tunnelHello)]))
      [.forward 0 .broadcast default [1] none,
        .forward (milliseconds 10) .broadcast default [2] none,
        .forward (milliseconds 20) .broadcast default [1] none] := by
  decide +kernel

end UdpTunnel

end LinkExtender
