import LinkExtender.UdpTunnel.PeerTable

/-!
# What the duplicate filter drops

Each call of `forward` is written down with the state it was made in.  The cache
is a record of calls that passed it, by type, node and payload hash: it knows
neither the target node of a call nor whether anybody was reached.
-/

namespace LinkExtender

namespace UdpTunnel

open EventMachine

/-- A call of `forward` and the state it was made in. -/
structure Call where
  before : UdpTunnel
  now : TimePoint
  type : TunnelMessageType
  fromNode : NodeId
  message : List UInt8
  toNode : Option NodeId

def callOf (t : UdpTunnel) : TunnelEvent → Option Call
  | .forward now type fromNode message toNode =>
      some ⟨t, now, type, fromNode, message, toNode⟩
  | _ => none

def recordCall (calls : List Call) (t : UdpTunnel) (e : TunnelEvent) : List Call :=
  (callOf t e).toList ++ calls

abbrev recorded : Machine (UdpTunnel × List Call) TunnelEvent TunnelOutput :=
  monitored machine recordCall

namespace Call

def key (c : Call) : DedupKey := ⟨c.type.toUInt8, c.fromNode, fnv1a64 c.message⟩

def Dropped (c : Call) : Prop := c.before.Suppressed c.now c.type c.fromNode c.message

def recipients (c : Call) : List UdpEndpoint := c.before.recipients c.type c.toNode

def sent (c : Call) : List TunnelOutput :=
  (c.before.forward c.now c.type c.fromNode c.message c.toNode).2

def SamePayload (c d : Call) : Prop :=
  c.type = d.type ∧ c.fromNode = d.fromNode ∧ c.message = d.message

def Recent (c d : Call) : Prop := d.now - c.now < kDedupWindow

instance (c : Call) : Decidable c.Dropped := inferInstanceAs (Decidable (_ = _))
instance (c d : Call) : Decidable (c.SamePayload d) :=
  inferInstanceAs (Decidable (_ ∧ _))
instance (c d : Call) : Decidable (c.Recent d) := inferInstanceAs (Decidable (_ < _))

end Call

/-- A dropped call repeats a recent call to the same target that was sent. -/
def DropJustified (p : UdpTunnel × List Call) (e : TunnelEvent) : Prop :=
  ∀ d ∈ callOf p.1 e, d.Dropped →
    ∃ c ∈ p.2, c.Recent d ∧ c.SamePayload d ∧ c.toNode = d.toNode ∧ c.sent ≠ []

/-- A call whose payload has been through the cache recently repeats its target
and found it reachable then.  One that does not is dropped all the same, unless other
keys have driven the payload out of the cache. -/
def OnlyRepeats (p : UdpTunnel × List Call) (e : TunnelEvent) : Prop :=
  ∀ d ∈ callOf p.1 e, d.type.isDeduplicated = true →
    ∀ c ∈ p.2, c.Recent d → c.SamePayload d → ¬ c.Dropped →
      c.toNode = d.toNode ∧ c.recipients ≠ []

/-- The payload of a call collides with none before it. -/
def CollisionFree (p : UdpTunnel × List Call) (e : TunnelEvent) : Prop :=
  ∀ d ∈ callOf p.1 e, ∀ c ∈ p.2, fnv1a64 c.message = fnv1a64 d.message →
    c.message = d.message

instance (p : UdpTunnel × List Call) (e : TunnelEvent) : Decidable (DropJustified p e) :=
  inferInstanceAs (Decidable (∀ _ ∈ _, _))
instance (p : UdpTunnel × List Call) (e : TunnelEvent) : Decidable (OnlyRepeats p e) :=
  inferInstanceAs (Decidable (∀ _ ∈ _, _))
instance (p : UdpTunnel × List Call) (e : TunnelEvent) : Decidable (CollisionFree p e) :=
  inferInstanceAs (Decidable (∀ _ ∈ _, _))

/-! ## The cache and the calls -/

/-- Every entry of the cache was left by a call that passed it. -/
structure Accounted (p : UdpTunnel × List Call) : Prop where
  wellFormed : p.1.mDedupCache.WellFormed
  window : p.1.mDedupCache.mWindow = kDedupWindow
  entries : ∀ node ∈ p.1.mDedupCache.mEntries, ∃ c ∈ p.2,
    c.type.isDeduplicated = true ∧ ¬ c.Dropped ∧ c.key = node.key ∧
      c.now = node.timestamp

theorem mDedupCache_next_of_callOf_eq_none {t : UdpTunnel} {e : TunnelEvent}
    (h : callOf t e = none) : (next machine t e).mDedupCache = t.mDedupCache := by
  have heffect := effect t e
  generalize next machine t e = t', emit machine t e = out at heffect ⊢
  cases heffect with
  | forward => cases h
  | maintain hrun => exact mDedupCache_runMaintenance t _
  | _ => rfl

theorem callOf_eq_some {t : UdpTunnel} {e : TunnelEvent} {d : Call}
    (h : callOf t e = some d) :
    e = .forward d.now d.type d.fromNode d.message d.toNode ∧ d.before = t := by
  cases e with
  | forward => cases h; exact ⟨rfl, rfl⟩
  | _ => cases h

theorem mDedupCache_next_of_callOf_eq_some {t : UdpTunnel} {e : TunnelEvent} {d : Call}
    (h : callOf t e = some d) :
    (next machine t e).mDedupCache =
      t.cacheAfter d.now d.type d.fromNode d.message := by
  obtain ⟨rfl, -⟩ := callOf_eq_some h
  simp only [next, machine, forward_fst]

/-- The recorded calls are those that were made. -/
theorem mem_recorded {t : UdpTunnel} {es : List TunnelEvent} {c : Call}
    (h : c ∈ (run recorded (t, []) es).2) :
    .forward c.now c.type c.fromNode c.message c.toNode ∈ es := by
  have hcalls := history_induction recorded (t, [])
    (I := fun es p ↦ ∀ c ∈ p.2, .forward c.now c.type c.fromNode c.message c.toNode ∈ es)
    (by simp) (fun past e ih c hc ↦ ?_) es
  · exact hcalls c h
  · rw [next_monitored] at hc
    rcases List.mem_append.mp hc with hnew | hold
    · obtain ⟨rfl, -⟩ := callOf_eq_some (Option.mem_toList.mp hnew)
      exact List.mem_append_right _ List.mem_cons_self
    · exact List.mem_append_left _ (ih c hold)

theorem accounted_next {p : UdpTunnel × List Call} (h : Accounted p)
    (e : TunnelEvent) : Accounted (next recorded p e) := by
  obtain ⟨t, calls⟩ := p
  rw [next_monitored]
  cases hcall : callOf t e with
  | none =>
      have hcache := mDedupCache_next_of_callOf_eq_none hcall
      have hcalls : recordCall calls t e = calls := by simp [recordCall, hcall]
      refine ⟨?_, ?_, ?_⟩ <;> dsimp only <;> rw [hcache]
      · exact h.wellFormed
      · exact h.window
      · rw [hcalls]
        exact h.entries
  | some d =>
      have hcache := mDedupCache_next_of_callOf_eq_some hcall
      have hbefore := (callOf_eq_some hcall).2
      have hcalls : recordCall calls t e = d :: calls := by simp [recordCall, hcall]
      cases hdedup : d.type.isDeduplicated with
      | false =>
          simp only [cacheAfter, hdedup, Bool.false_eq_true, if_false] at hcache
          refine ⟨?_, ?_, ?_⟩ <;> dsimp only <;> rw [hcache]
          · exact h.wellFormed
          · exact h.window
          · rw [hcalls]
            intro node hnode
            obtain ⟨c, hc, hrest⟩ := h.entries node hnode
            exact ⟨c, List.mem_cons_of_mem d hc, hrest⟩
      | true =>
          simp only [cacheAfter, hdedup, if_true, DedupCache.isDuplicate] at hcache
          refine ⟨?_, ?_, ?_⟩ <;> dsimp only <;> rw [hcache]
          · exact DedupCache.wellFormed_isDuplicateKey h.wellFormed _ _
          · rw [DedupCache.mWindow_isDuplicateKey]
            exact h.window
          · rw [hcalls]
            intro node hnode
            rcases DedupCache.mem_entries_isDuplicateKey h.wellFormed _ _ hnode with
              ⟨hold, -⟩ | ⟨hpassed, hkey, htime⟩
            · obtain ⟨c, hc, hrest⟩ := h.entries node hold
              exact ⟨c, List.mem_cons_of_mem d hc, hrest⟩
            · refine ⟨d, List.mem_cons_self, hdedup, ?_, hkey.symm, htime.symm⟩
              rw [Call.Dropped, suppressed_iff, hbefore]
              rintro ⟨-, hdup⟩
              rw [DedupCache.isDuplicate, hpassed] at hdup
              cases hdup

theorem exists_call_of_dropped {p : UdpTunnel × List Call} (h : Accounted p)
    {e : TunnelEvent} {d : Call} (hcall : callOf p.1 e = some d) (hdropped : d.Dropped) :
    ∃ c ∈ p.2, c.type.isDeduplicated = true ∧ ¬ c.Dropped ∧ c.Recent d ∧
      c.type = d.type ∧ c.fromNode = d.fromNode ∧
      fnv1a64 c.message = fnv1a64 d.message := by
  rw [Call.Dropped, suppressed_iff, (callOf_eq_some hcall).2] at hdropped
  obtain ⟨-, hdup⟩ := hdropped
  obtain ⟨node, hnode, hkey, hfresh⟩ :=
    DedupCache.exists_entry_of_isDuplicateKey h.wellFormed hdup
  obtain ⟨c, hc, hdedup, hpassed, hckey, htime⟩ := h.entries node hnode
  obtain ⟨htype, hfrom, hhash⟩ := DedupKey.mk.inj (hckey.trans hkey)
  refine ⟨c, hc, hdedup, hpassed, ?_, ?_, hfrom, hhash⟩
  · rw [h.window, ← htime] at hfresh
    exact hfresh
  · rw [← TunnelMessageType.ofUInt8_toUInt8 c.type, htype,
      TunnelMessageType.ofUInt8_toUInt8]

theorem Call.sent_ne_nil {c : Call} (hdedup : c.type.isDeduplicated = true)
    (hpassed : ¬ c.Dropped) (hrecipients : c.recipients ≠ []) : c.sent ≠ [] := by
  have henc : encapsulate ⟨c.fromNode, c.type, c.toNode, 0⟩ c.message ≠ none := by
    rw [Ne, encapsulate_eq_none]
    rintro ⟨hto, hnone⟩
    dsimp only at hto hnone
    cases htype : c.type with
    | unicast => simp [Call.recipients, UdpTunnel.recipients, htype, hnone, TunnelMessageType.isRouted]
        at hrecipients
    | _ => simp [htype, TunnelMessageType.isDeduplicated, TunnelMessageType.hasToNode] at hdedup hto
  obtain ⟨msg, hmsg⟩ := Option.ne_none_iff_exists'.mp henc
  rw [Call.Dropped] at hpassed
  rw [Call.recipients] at hrecipients
  rw [Call.sent, forward_snd, if_neg hpassed, hmsg]
  simpa using hrecipients

theorem accounted_create (initialPeers : List UdpEndpoint) :
    Accounted (create initialPeers, []) := by
  refine ⟨?_, ?_, ?_⟩ <;> dsimp only <;> rw [mDedupCache_create]
  · exact DedupCache.wellFormed_initial
  · rfl
  · intro node hnode
    cases hnode

theorem accounted_run (initialPeers : List UdpEndpoint) (es : List TunnelEvent) :
    Accounted (run recorded (create initialPeers, []) es) :=
  run_invariant recorded (I := Accounted) (fun _ e h ↦ accounted_next h e)
    (accounted_create initialPeers) es

/-- Where repeated payloads repeat their target, and were sent the first time,
every drop is that of a duplicate. -/
theorem along_dropJustified (initialPeers : List UdpEndpoint) {es : List TunnelEvent}
    (hfree : Along recorded CollisionFree (create initialPeers, []) es)
    (hrepeats : Along recorded OnlyRepeats (create initialPeers, []) es) :
    Along recorded DropJustified (create initialPeers, []) es := by
  refine along_of_invariant recorded (I := Accounted)
    (C := fun p e ↦ CollisionFree p e ∧ OnlyRepeats p e)
    (fun _ e h _ ↦ accounted_next h e) ?_ (accounted_create initialPeers)
    ((along_and ..).mpr ⟨hfree, hrepeats⟩)
  rintro p e h ⟨hcollision, hrepeat⟩ d hcall hdropped
  obtain ⟨c, hc, hdedup, hpassed, hrecent, htype, hfrom, hhash⟩ :=
    exists_call_of_dropped h hcall hdropped
  have hsame : c.SamePayload d := ⟨htype, hfrom, hcollision d hcall c hc hhash⟩
  obtain ⟨htarget, hrecipients⟩ :=
    hrepeat d hcall (htype ▸ hdedup) c hc hrecent hsame hpassed
  exact ⟨c, hc, hrecent, hsame, htarget, Call.sent_ne_nil hdedup hpassed hrecipients⟩

/-- A broadcast that reached its peer is dropped when another gateway repeats it. -/
theorem along_dropJustified_repeated :
    Along recorded DropJustified (create [localhost 1], [])
      [.receive 0 (localhost 1) (controlDatagram .tunnelHello),
        .forward 0 .broadcast default [1, 2, 3] none,
        .forward (milliseconds 1) .broadcast default [1, 2, 3] none] :=
  along_dropJustified [localhost 1] (by decide +kernel) (by decide +kernel)

/-- An empty broadcast of a node, as it arrives from the network. -/
def announcement (node : NodeId) : Datagram :=
  ⟨tunnelHeader .broadcast node none 0, by
    rw [length_tunnelHeader rfl]
    decide⟩

def otherNode : NodeId := ⟨List.replicate 8 1, rfl⟩

/-- Two nodes behind one peer are sent the same unicast. -/
def equalUnicasts : List TunnelEvent :=
  [.receive 0 (localhost 1) (controlDatagram .tunnelHello),
    .receive 0 (localhost 1) (announcement default),
    .receive 0 (localhost 1) (announcement otherNode),
    .forward 0 .unicast default [1] (some default),
    .forward 0 .unicast default [1] (some otherNode)]

/-- A broadcast is tried again once a peer has connected. -/
def retriedBroadcast : List TunnelEvent :=
  [.forward 0 .broadcast default [1] none,
    .receive 0 (localhost 1) (controlDatagram .tunnelHello),
    .forward (milliseconds 1) .broadcast default [1] none]

/-- Both are dropped although nothing equal was sent before. -/
theorem not_along_dropJustified :
    (Along recorded CollisionFree (create [localhost 1], []) equalUnicasts ∧
      ¬ Along recorded DropJustified (create [localhost 1], []) equalUnicasts) ∧
    (Along recorded CollisionFree (create [localhost 1], []) retriedBroadcast ∧
      ¬ Along recorded DropJustified (create [localhost 1], []) retriedBroadcast) := by
  decide +kernel

end UdpTunnel

end LinkExtender
