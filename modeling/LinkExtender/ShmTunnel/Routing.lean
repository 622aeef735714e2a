import LinkExtender.ShmTunnel
import LinkExtender.Library.History

/-!
# The clients that a shared-memory tunnel routes to

`listen` keeps two tables: the clients that have said HELLO, and for each node the
client that it was first heard through.  A BYE of a client is taken out of the first
table only, so nodes behind that client stay routed to a mailbox that nobody reads.
-/

namespace LinkExtender

namespace ShmTunnel

open EventMachine History

/-- What a turn of the loop in `listen` reads: the client and the context. -/
def processed : ShmTunnelEvent → Option (ℕ × MessageContext)
  | .popped source msg => (decapsulate msg).map (fun r ↦ (source, r.1))
  | .forward .. => none

/-- A data message of the node is read that the client has pushed. -/
def BringsData (node : NodeId) (source : ℕ) (e : ShmTunnelEvent) : Prop :=
  ∃ context, processed e = some (source, context) ∧ context.fromNode = node ∧
    context.type.isControl = false ∧ context.type ≠ .byebye

def SaysBye (source : ℕ) (e : ShmTunnelEvent) : Prop :=
  ∃ context, processed e = some (source, context) ∧ context.type = .tunnelBye

/-- The node's own `BYEBYE`, through whichever client. -/
def Withdraws (node : NodeId) (e : ShmTunnelEvent) : Prop :=
  ∃ source context, processed e = some (source, context) ∧ context.fromNode = node ∧
    context.type = .byebye

/-- The node was heard through the client, and neither of them has left since. -/
def Present (node : NodeId) (source : ℕ) : List ShmTunnelEvent → Prop :=
  Since (fun _ e ↦ BringsData node source e)
    (fun _ e ↦ ¬ SaysBye source e ∧ ¬ Withdraws node e)

/-- Unicasts to the node go into the client's mailbox, and into no other. -/
def Reaches (t : ShmTunnel) (node : NodeId) (clientIdx : ℕ) : Prop :=
  t.recipients .unicast (some node) = [clientIdx]

/-- What routing promises once the events of `past` have been read. -/
structure RoutesToPresent (mClientId : ℕ) (past : List ShmTunnelEvent) : Prop where
  present : ∀ now type fromNode message node clientIdx source msg, type.isRouted = true →
    .push clientIdx source msg ∈ emit machine (run machine (create mClientId) past)
      (.forward now type fromNode message (some node)) →
    Present node clientIdx past
  /-- When the client behind which a node is reached says BYE, the next data message of
  the node from another client makes it reachable there. -/
  rejoins : ∀ before bye mid e node source other, past = before ++ bye :: mid ++ [e] →
    SaysBye source bye → (run machine (create mClientId) before).Reaches node source →
    (∀ e' ∈ mid, ∀ client, ¬ BringsData node client e') →
    BringsData node other e → other ≠ source →
    (run machine (create mClientId) past).Reaches node other

/-- No client says BYE that some node is routed to, and a keepalive, which `listen`
takes for a data message, is of a node with a route. -/
def KeepsPresent (t : ShmTunnel) (e : ShmTunnelEvent) : Prop :=
  ∀ source context, processed e = some (source, context) →
    (context.type = .tunnelBye →
      ∀ node, t.remoteNodeIdToTunnelClientIdx.find node ≠ some source) ∧
    (context.type = .tunnelKeepalive →
      t.remoteNodeIdToTunnelClientIdx.find context.fromNode ≠ none)

/-! ## Where a message is pushed -/

theorem reaches_iff {t : ShmTunnel} {node : NodeId} {clientIdx : ℕ} :
    t.Reaches node clientIdx ↔
      t.remoteNodeIdToTunnelClientIdx.find node = some clientIdx := by
  cases hfind : t.remoteNodeIdToTunnelClientIdx.find node <;>
    simp [Reaches, recipients, TunnelMessageType.isRouted, hfind]

theorem find_of_push {t : ShmTunnel} {now : TimePoint} {type : TunnelMessageType}
    {fromNode node : NodeId} {message : List UInt8} {clientIdx source : ℕ}
    {msg : MessageBuffer} (htype : type.isRouted = true)
    (hpush : .push clientIdx source msg ∈
      emit machine t (.forward now type fromNode message (some node))) :
    t.remoteNodeIdToTunnelClientIdx.find node = some clientIdx := by
  simp only [emit, machine, forward] at hpush
  split at hpush
  · simp at hpush
  · split at hpush
    · simp at hpush
    · obtain ⟨clientIdx', hmem, heq⟩ := List.mem_map.mp hpush
      obtain rfl : clientIdx' = clientIdx := by
        cases heq
        rfl
      simpa [recipients, htype] using hmem

/-- A ping passes every filter on its way to the mailbox. -/
theorem exists_push {t : ShmTunnel} {node : NodeId} {clientIdx : ℕ}
    (hfind : t.remoteNodeIdToTunnelClientIdx.find node = some clientIdx) :
    ∃ source msg, .push clientIdx source msg ∈
      emit machine t (.forward 0 .measurementPing default [] (some node)) := by
  have hmsg : encapsulate ⟨default, .measurementPing, some node, 0⟩ [] ≠ none := by
    simp [encapsulate_eq_none]
  obtain ⟨msg, hmsg⟩ := Option.ne_none_iff_exists'.mp hmsg
  refine ⟨t.mClientId, msg, ?_⟩
  have hpass : shouldForward t.mDedupCache 0 .measurementPing default [] =
      (true, t.mDedupCache) := rfl
  simp only [emit, machine, forward, hpass, hmsg]
  simp [recipients, TunnelMessageType.isRouted, hfind]

/-! ## One event -/

theorem remoteNodeIdToTunnelClientIdx_forward (t : ShmTunnel) (now : TimePoint)
    (type : TunnelMessageType) (fromNode : NodeId) (message : List UInt8)
    (toNode : Option NodeId) :
    (next machine t (.forward now type fromNode message toNode)).isRunning = t.isRunning ∧
    (next machine t (.forward now type fromNode message toNode)).remoteNodeIdToTunnelClientIdx =
      t.remoteNodeIdToTunnelClientIdx := by
  simp only [next, machine, forward]
  split
  · exact ⟨rfl, rfl⟩
  · split <;> exact ⟨rfl, rfl⟩

/-- What an event does to the table of the nodes of a running client. -/
inductive Routes (t : ShmTunnel) (e : ShmTunnelEvent) : PartialMap NodeId ℕ → Prop
  | quiet (hquiet : ∀ source context, processed e = some (source, context) →
        context.type = .tunnelHello ∨ context.type = .tunnelBye) :
      Routes t e t.remoteNodeIdToTunnelClientIdx
  | byebye {source : ℕ} {context : MessageContext}
      (hread : processed e = some (source, context)) (htype : context.type = .byebye) :
      Routes t e (t.remoteNodeIdToTunnelClientIdx.erase context.fromNode)
  | recorded {source : ℕ} {context : MessageContext}
      (hread : processed e = some (source, context)) (hhello : context.type ≠ .tunnelHello)
      (hbye : context.type ≠ .tunnelBye) (hbyebye : context.type ≠ .byebye) :
      Routes t e (t.remoteNodeIdToTunnelClientIdx.emplace context.fromNode source)

theorem routes {t : ShmTunnel} (hrun : t.isRunning = true) (e : ShmTunnelEvent) :
    (next machine t e).isRunning = true ∧
      Routes t e (next machine t e).remoteNodeIdToTunnelClientIdx := by
  cases e with
  | forward now type fromNode message toNode =>
      obtain ⟨hrunning, htable⟩ :=
        remoteNodeIdToTunnelClientIdx_forward t now type fromNode message toNode
      rw [hrunning, htable]
      exact ⟨hrun, .quiet (fun _ _ h ↦ by cases h)⟩
  | popped source msg =>
      simp only [next, machine, handlePopped, hrun, if_true]
      cases hmsg : decapsulate msg with
      | none => exact ⟨hrun, .quiet (fun _ _ h ↦ by simp [processed, hmsg] at h)⟩
      | some r =>
          obtain ⟨context, payload⟩ := r
          have hread : processed (.popped source msg) = some (source, context) := by
            simp [processed, hmsg]
          have hquiet (h : context.type = .tunnelHello ∨ context.type = .tunnelBye) :
              ∀ source' context', processed (.popped source msg) = some (source', context') →
                context'.type = .tunnelHello ∨ context'.type = .tunnelBye := by
            intro source' context' hread'
            obtain ⟨-, rfl⟩ := Prod.mk.inj (Option.some.inj (hread.symm.trans hread'))
            exact h
          cases htype : context.type with
          | tunnelHello =>
              simp only [htype, handleHello]
              split <;> exact ⟨hrun, .quiet (hquiet (Or.inl htype))⟩
          | tunnelBye =>
              simp only [htype]
              exact ⟨trivial, .quiet (hquiet (Or.inr htype))⟩
          | byebye =>
              simp only [htype]
              exact ⟨trivial, .byebye hread htype⟩
          | _ =>
              simp only [htype]
              exact ⟨trivial, .recorded hread (by simp [htype]) (by simp [htype])
                (by simp [htype])⟩

/-! ## Runs -/

section Runs

variable {mClientId : ℕ} {past : List ShmTunnelEvent} {e : ShmTunnelEvent} {node : NodeId}
  {source : ℕ}

/-- A node that is present behind some client has a route. -/
structure Recorded (t : ShmTunnel) (past : List ShmTunnelEvent) : Prop where
  isRunning : t.isRunning = true
  routed : ∀ node source, Present node source past →
    t.remoteNodeIdToTunnelClientIdx.find node ≠ none

theorem recorded_create (mClientId : ℕ) : (create mClientId).Recorded [] where
  isRunning := rfl
  routed := fun _ _ h ↦ absurd h (not_since_nil _ _)

theorem Recorded.next {t : ShmTunnel} (h : t.Recorded past) (e : ShmTunnelEvent) :
    (next machine t e).Recorded (past ++ [e]) := by
  obtain ⟨hrun, hroutes⟩ := routes h.isRunning e
  refine ⟨hrun, ?_⟩
  intro node source hpresent
  rw [Present, since_concat] at hpresent
  generalize (EventMachine.next machine t e).remoteNodeIdToTunnelClientIdx = table at hroutes ⊢
  rcases hpresent with hdata | ⟨hpresent, -, hstays⟩
  · obtain ⟨context, hread, rfl, hcontrol, hbyebye⟩ := hdata
    cases hroutes with
    | quiet hquiet =>
        rcases hquiet source context hread with htype | htype <;>
          simp [htype, TunnelMessageType.isControl] at hcontrol
    | byebye hread' htype =>
        obtain ⟨rfl, rfl⟩ := Prod.mk.inj (Option.some.inj (hread.symm.trans hread'))
        exact absurd htype hbyebye
    | recorded hread' =>
        obtain ⟨rfl, rfl⟩ := Prod.mk.inj (Option.some.inj (hread.symm.trans hread'))
        rw [PartialMap.find_emplace]
        split
        · simp
        · simp_all
  · have hrouted := h.routed node source hpresent
    cases hroutes with
    | quiet => exact hrouted
    | @byebye source' context hread htype =>
        have hne : node ≠ context.fromNode := by
          rintro rfl
          exact hstays ⟨source', context, hread, rfl, htype⟩
        rwa [PartialMap.find_erase_of_ne _ hne]
    | recorded =>
        rw [PartialMap.find_emplace]
        split
        · simp
        · exact hrouted

/-- Conversely every route is to a client that the node is present behind. -/
structure Attended (mClientId : ℕ) (past : List ShmTunnelEvent) : Prop where
  recorded : (run machine (create mClientId) past).Recorded past
  along : Along machine KeepsPresent (create mClientId) past
  present : ∀ node source,
    (run machine (create mClientId) past).remoteNodeIdToTunnelClientIdx.find node =
      some source → Present node source past

theorem attended_nil (mClientId : ℕ) : Attended mClientId [] where
  recorded := recorded_create mClientId
  along := along_nil ..
  present := by simp [create]

theorem Attended.concat (h : Attended mClientId past)
    (hkeeps : (run machine (create mClientId) past).KeepsPresent e) :
    Attended mClientId (past ++ [e]) := by
  obtain ⟨-, hroutes⟩ := routes h.recorded.isRunning e
  constructor
  · rw [run_concat]
    exact h.recorded.next e
  · exact (along_concat ..).mpr ⟨h.along, hkeeps⟩
  intro node source hfind
  rw [run_concat] at hfind
  rw [Present, since_concat]
  generalize (next machine (run machine (create mClientId) past)
    e).remoteNodeIdToTunnelClientIdx = table at hroutes hfind
  -- a route that was there stays present unless the client or the node leaves
  have hstays (hbefore : (run machine (create mClientId)
      past).remoteNodeIdToTunnelClientIdx.find node = some source)
      (hwithdraws : ¬ Withdraws node e) :
      Present node source past ∧ ¬ SaysBye source e ∧ ¬ Withdraws node e := by
    refine ⟨h.present node source hbefore, ?_, hwithdraws⟩
    rintro ⟨context, hread, htype⟩
    exact (hkeeps source context hread).1 htype node hbefore
  cases hroutes with
  | quiet hquiet =>
      refine Or.inr (hstays hfind ?_)
      rintro ⟨source', context, hread, -, htype⟩
      rcases hquiet source' context hread with htype' | htype' <;> simp [htype] at htype'
  | byebye hread htype =>
      obtain ⟨hne, hbefore⟩ := (PartialMap.find_erase_eq_some ..).mp hfind
      refine Or.inr (hstays hbefore ?_)
      rintro ⟨source', context', hread', rfl, -⟩
      obtain ⟨-, rfl⟩ := Prod.mk.inj (Option.some.inj (hread.symm.trans hread'))
      exact hne rfl
  | @recorded source' context hread hhello hbye hbyebye =>
      rw [PartialMap.find_emplace] at hfind
      split at hfind
      · rename_i hnew
        obtain ⟨rfl, hfree⟩ := hnew
        obtain rfl := Option.some.inj hfind
        refine Or.inl ⟨context, hread, rfl, ?_, hbyebye⟩
        have hkeepalive : context.type ≠ .tunnelKeepalive :=
          fun htype ↦ (hkeeps source' context hread).2 htype hfree
        cases htype : context.type <;> simp_all [TunnelMessageType.isControl]
      · refine Or.inr (hstays hfind ?_)
        rintro ⟨source'', context', hread', -, htype⟩
        obtain ⟨-, rfl⟩ := Prod.mk.inj (Option.some.inj (hread.symm.trans hread'))
        exact hbyebye htype

/-- No client that a node is reached through has ever said BYE, so there is nothing to
be taken over. -/
theorem Attended.routesToPresent (h : Attended mClientId past) :
    RoutesToPresent mClientId past where
  present := by
    intro now type fromNode message node clientIdx source msg htype hpush
    exact h.present node clientIdx (find_of_push htype hpush)
  rejoins := by
    rintro before bye mid e node source other rfl ⟨context, hread, htype⟩ hreaches
    have halong := h.along
    rw [List.append_assoc, List.cons_append, along_append, along_cons] at halong
    exact absurd (reaches_iff.mp hreaches)
      ((halong.2.1 source context hread).1 htype node)

theorem keepsPresent_of_routesToPresent (h : Attended mClientId past)
    (hafter : RoutesToPresent mClientId (past ++ [e])) :
    (run machine (create mClientId) past).KeepsPresent e := by
  obtain ⟨-, hroutes⟩ := routes h.recorded.isRunning e
  have hpresent : ∀ node source,
      (next machine (run machine (create mClientId) past)
        e).remoteNodeIdToTunnelClientIdx.find node = some source →
      Present node source (past ++ [e]) := by
    intro node source hfind
    rw [← run_concat] at hfind
    obtain ⟨source', msg, hpush⟩ := exists_push hfind
    exact hafter.present 0 .measurementPing default [] node source source' msg rfl hpush
  generalize (next machine (run machine (create mClientId) past)
    e).remoteNodeIdToTunnelClientIdx = table at hroutes hpresent
  intro source context hread
  constructor
  · intro htype node hfind
    cases hroutes with
    | quiet =>
        have hstays := hpresent node source hfind
        rw [Present, since_concat] at hstays
        rcases hstays with ⟨context', hread', -, hcontrol, -⟩ | ⟨-, hbye, -⟩
        · obtain ⟨-, rfl⟩ := Prod.mk.inj (Option.some.inj (hread.symm.trans hread'))
          simp [htype, TunnelMessageType.isControl] at hcontrol
        · exact hbye ⟨context, hread, htype⟩
    | byebye hread' htype' | recorded hread' _ htype' =>
        obtain ⟨-, rfl⟩ := Prod.mk.inj (Option.some.inj (hread.symm.trans hread'))
        simp [htype] at htype'
  · intro htype hfree
    cases hroutes with
    | quiet hquiet => rcases hquiet source context hread with h | h <;> simp [htype] at h
    | byebye hread' htype' =>
        obtain ⟨-, rfl⟩ := Prod.mk.inj (Option.some.inj (hread.symm.trans hread'))
        simp [htype] at htype'
    | recorded hread' =>
        obtain ⟨rfl, rfl⟩ := Prod.mk.inj (Option.some.inj (hread.symm.trans hread'))
        have hnew := hpresent context.fromNode source (by simp [PartialMap.find_emplace, hfree])
        rw [Present, since_concat] at hnew
        rcases hnew with ⟨context', hread', -, hcontrol, -⟩ | ⟨hbefore, -⟩
        · obtain ⟨-, rfl⟩ := Prod.mk.inj (Option.some.inj (hread.symm.trans hread'))
          simp [htype, TunnelMessageType.isControl] at hcontrol
        · exact h.recorded.routed context.fromNode source hbefore hfree

end Runs

/-- Routing keeps its promise all along a run exactly when no client that a node is
routed to says BYE, and no keepalive is of a node without a route. -/
theorem forall_routesToPresent_iff (mClientId : ℕ) (es : List ShmTunnelEvent) :
    (∀ past, past <+: es → RoutesToPresent mClientId past) ↔
      Along machine KeepsPresent (create mClientId) es :=
  forall_prefix_iff_along machine (create mClientId) (attended_nil mClientId)
    (fun _ h ↦ h.routesToPresent) (fun _ _ h hkeeps ↦ h.concat hkeeps)
    (fun _ _ h hafter ↦ keepsPresent_of_routesToPresent h hafter) es

/-- An empty message of the zero node, or of its client. -/
def emptyMessage (type : TunnelMessageType) : MessageBuffer :=
  MessageBuffer.ofBytes (tunnelHeader type default none 0)

theorem processed_emptyMessage {type : TunnelMessageType} (htype : type.hasToNode = false)
    (source : ℕ) :
    processed (.popped source (emptyMessage type)) = some (source, ⟨default, type, none, 0⟩) := by
  have hto : (none : Option NodeId).isSome = type.hasToNode := htype.symm
  have hfits : (tunnelHeader type default none 0).length ≤ kMaxMessageSize := by
    rw [length_tunnelHeader hto, kMaxMessageSize]
    exact (tunnelHeaderSize_le type).trans (by decide)
  have hread := decapsulate_header hto (MessageBuffer.bytes_ofBytes hfits)
  rw [processed, emptyMessage, hread]
  rfl

/-- A client leaves, and the node behind it stays routed there. -/
theorem not_forall_routesToPresent :
    ¬ ∀ past, past <+: [.popped 1 (emptyMessage .broadcast), .popped 1 (emptyMessage .tunnelBye)] →
      RoutesToPresent 0 past := by
  intro h
  have hfirst : (create 0).KeepsPresent (.popped 1 (emptyMessage .broadcast)) := by
    intro source context hread
    rw [processed_emptyMessage rfl] at hread
    cases hread
    simp
  have hattended : Attended 0 [.popped 1 (emptyMessage .broadcast)] :=
    (attended_nil 0).concat hfirst
  have hsecond := keepsPresent_of_routesToPresent hattended (h _ List.prefix_rfl)
  exact (hsecond 1 _ (processed_emptyMessage rfl 1)).1 rfl default (by decide +kernel)

end ShmTunnel

end LinkExtender
