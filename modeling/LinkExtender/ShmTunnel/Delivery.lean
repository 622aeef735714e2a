import LinkExtender.ShmTunnel.Segment

/-!
# From client to client

A message passes two queues on its way through the segment: the pushes that its client
has still to make, and the mailbox.  Both keep the order.  So what the gateways of one
client are handed from another is, in order, a part of what the gateways of the other
have forwarded to it, and all of it where no mailbox was full.  This is so until one of
the clients stops listening; its mailbox is then cleared without a lock, and its slot may
be given out again.
-/

namespace LinkExtender

open EventMachine

/-- The types that `listen` keeps to itself. -/
def TunnelMessageType.isKept : TunnelMessageType → Bool
  | tunnelHello | tunnelBye | byebye => true
  | _ => false

namespace ShmSegment

/-- What a client's gateways are handed for a message in its mailbox. -/
def readCall (msg : MessageBuffer) : Option ForwardCall :=
  match decapsulate msg with
  | some (context, payload) =>
      if context.type.isKept then none
      else some
        ⟨context.type, context.fromNode, payload.bytes.take context.size, context.toNode⟩
  | none => none

/-- The calls in those messages of a list that carry a key: the source in a mailbox, the
destination among the pushes of a client. -/
def calls (key : ℕ) (msgs : List (ℕ × MessageBuffer)) : List ForwardCall :=
  msgs.filterMap (fun p ↦ if p.1 = key then readCall p.2 else none)

/-- What client `source` has passed to its tunnel for client `dest`. -/
def offered (source dest : ℕ) (s : ShmSegment) : ShmSegmentEvent → List ForwardCall
  | .forward slot now type fromNode message toNode =>
      let t := (s.client slot).tunnel
      if slot = source ∧ (s.client slot).pushes = [] ∧
          (shouldForward t.mDedupCache now type fromNode message).1 = true ∧
          (encapsulate ⟨fromNode, type, toNode, 0⟩ message).isSome = true ∧
          dest ∈ t.recipients type toNode ∧ type.isKept = false then
        [⟨type, fromNode, message, if type.hasToNode then toNode else none⟩]
      else []
  | _ => []

/-- What the gateways of client `dest` are handed for a message of client `source`. -/
def handed (source dest : ℕ) (s : ShmSegment) : ShmSegmentEvent → List ForwardCall
  | .listen slot =>
      if slot = dest ∧ (s.popped slot).map Prod.fst = some source then
        (emit machine s (.listen slot)).map (fun o ↦ o.2.call)
      else []
  | _ => []

/-- What is on its way from one client to another. -/
def underway (source dest : ℕ) (s : ShmSegment) : List ForwardCall :=
  calls source (s.queued dest) ++ calls dest (s.client source).pushes

/-- A message that is forwarded fits behind its header. -/
def Fits : ShmSegmentEvent → Prop
  | .forward _ _ type _ message _ => encapsulatedSize type message.length ≤ kMaxMessageSize
  | _ => True

/-- Until a client stops listening: a slot is given to one client, the first slot first, and
only clients that are there forward. -/
def InService (s : ShmSegment) : ShmSegmentEvent → Prop
  | .construct slot _ =>
      (s.client slot).listening = false ∧ (slot = 0 ∨ (s.client 0).listening = true)
  | .forward slot .. => (s.client slot).listening = true
  | .stopListening .. => False
  | .push _ | .pushFarewell _ | .listen _ => True

/-- What is pushed into the mailbox finds room there. -/
def HasRoom (dest : ℕ) (s : ShmSegment) (e : ShmSegmentEvent) : Prop :=
  pushed dest s e ≠ [] → (s.broadcast dest).isFull = false

def constructs (slot : ℕ) : ShmSegmentEvent → Bool
  | .construct slot' _ => slot' == slot
  | _ => false

/-- Nothing is lost on the way between the two: the mailbox has room and is cleared only
when it is empty, the receiver runs when it pops, and the sender is not replaced while it
has something to push. -/
def Lossless (source dest : ℕ) (s : ShmSegment) (e : ShmSegmentEvent) : Prop :=
  (clears dest s e = true → s.queued dest = []) ∧
    (pushed dest s e ≠ [] → (s.broadcast dest).isFull = false) ∧
    (constructs source e = true → (s.client source).pushes = []) ∧
    (e = .listen dest → (s.client dest).tunnel.isRunning = true)

instance (source dest : ℕ) (s : ShmSegment) (e : ShmSegmentEvent) :
    Decidable (Lossless source dest s e) :=
  inferInstanceAs (Decidable (_ ∧ _ ∧ _ ∧ _))

instance : ∀ e, Decidable (Fits e)
  | .forward _ _ type _ message _ =>
      inferInstanceAs (Decidable (encapsulatedSize type message.length ≤ kMaxMessageSize))
  | .construct .. | .push _ | .pushFarewell _ | .listen _ | .stopListening .. => isTrue trivial

instance (s : ShmSegment) : ∀ e, Decidable (InService s e)
  | .construct .. => inferInstanceAs (Decidable (_ ∧ _))
  | .forward .. => inferInstanceAs (Decidable (_ = _))
  | .stopListening .. => isFalse not_false
  | .push _ | .pushFarewell _ | .listen _ => isTrue trivial

instance (dest : ℕ) (s : ShmSegment) (e : ShmSegmentEvent) : Decidable (HasRoom dest s e) :=
  inferInstanceAs (Decidable (_ → _))

/-- Nobody pops from the mailbox, and what is in it is not cleared. -/
def Unattended (idx : ℕ) (s : ShmSegment) (e : ShmSegmentEvent) : Prop :=
  taken idx s e = [] ∧ (clears idx s e = true → s.queued idx = [])

instance (idx : ℕ) (s : ShmSegment) (e : ShmSegmentEvent) : Decidable (Unattended idx s e) :=
  inferInstanceAs (Decidable (_ ∧ _))

/-- A client sits in its own slot, and says only what is kept when it leaves. -/
structure Seated (slot : ℕ) (c : ShmThreads) : Prop where
  own : c.tunnel.mClientId = slot
  kept : ∀ p ∈ c.farewell, readCall p.2 = none

structure Working (s : ShmSegment) : Prop where
  sound : s.Sound
  seated : ∀ slot, Seated slot (s.client slot)

theorem Working.own {s : ShmSegment} (h : s.Working) (slot : ℕ) :
    (s.client slot).tunnel.mClientId = slot := (h.seated slot).own

/-! ## Envelopes -/

@[simp] theorem calls_nil (key : ℕ) : calls key [] = [] := rfl

@[simp] theorem calls_append (key : ℕ) (xs ys : List (ℕ × MessageBuffer)) :
    calls key (xs ++ ys) = calls key xs ++ calls key ys :=
  List.filterMap_append ..

theorem calls_cons (key clientIdx : ℕ) (msg : MessageBuffer) (msgs : List (ℕ × MessageBuffer)) :
    calls key ((clientIdx, msg) :: msgs) =
      (if clientIdx = key then (readCall msg).toList else []) ++ calls key msgs := by
  by_cases hkey : clientIdx = key
  · cases hread : readCall msg <;> simp [calls, hkey, hread]
  · simp [calls, hkey]

theorem calls_of_kept {key : ℕ} {msgs : List (ℕ × MessageBuffer)}
    (h : ∀ p ∈ msgs, readCall p.2 = none) : calls key msgs = [] := by
  apply List.filterMap_eq_nil_iff.mpr
  intro p hp
  simp [h p hp]

theorem readCall_of_isKept {context : MessageContext} {message : List UInt8}
    {msg : MessageBuffer} (hmsg : encapsulate context message = some msg)
    (hkept : context.type.isKept = true) : readCall msg = none := by
  unfold readCall
  cases hdecap : decapsulate msg with
  | none => rfl
  | some r =>
      have htype := type_of_encapsulate hmsg hdecap
      simp only [htype, hkept, if_true]

theorem readCall_of_fits {type : TunnelMessageType} {fromNode : NodeId} {toNode : Option NodeId}
    {message : List UInt8} {msg : MessageBuffer}
    (hmsg : encapsulate ⟨fromNode, type, toNode, 0⟩ message = some msg)
    (hkept : type.isKept = false)
    (hfits : encapsulatedSize type message.length ≤ kMaxMessageSize) :
    readCall msg =
      some ⟨type, fromNode, message, if type.hasToNode then toNode else none⟩ := by
  obtain ⟨bytes, hbytes, rfl⟩ := Option.map_eq_some_iff.mp hmsg
  have hlength := length_encapsulatedBytes hbytes
  obtain ⟨target, hsome, htarget, rfl⟩ := encapsulatedBytes_eq_some hbytes
  simp only at hsome htarget hlength ⊢
  have hroom := hlength.trans_le hfits
  obtain ⟨buffer, hbuffer, hdecap⟩ := exists_decapsulate_envelope hsome hroom
  have hnode : target = if type.hasToNode then toNode else none := by
    cases htype : type.hasToNode with
    | true => exact htarget htype
    | false => simpa [htype] using hsome
  rw [← hnode]
  simp only [readCall, hdecap, hkept, Bool.false_eq_true, if_false, hbuffer]

/-! ## What a client pushes -/

theorem mem_pushes {out : List ShmOutput} {p : ℕ × MessageBuffer} (h : p ∈ pushes out) :
    ∃ source, .push p.1 source p.2 ∈ out := by
  obtain ⟨o, ho, hp⟩ := List.mem_filterMap.mp h
  cases o with
  | push clientIdx source msg =>
      cases hp
      exact ⟨source, ho⟩
  | forwardLocally message => cases hp

theorem readCall_sayInTunnel {t : ShmTunnel} {type : TunnelMessageType} {msg : String}
    {idx clientIdx source : ℕ} {buffer : MessageBuffer} (hkept : type.isKept = true)
    (h : .push clientIdx source buffer ∈ t.sayInTunnel type msg idx) :
    readCall buffer = none := by
  simp only [ShmTunnel.sayInTunnel] at h
  cases hmsg : encapsulate ⟨default, type, none, 0⟩
      (msg.toList.map (fun c ↦ UInt8.ofNat c.toNat)) with
  | none => simp [hmsg] at h
  | some said =>
      rw [hmsg] at h
      obtain ⟨-, -, rfl⟩ := ShmOutput.push.inj (List.mem_singleton.mp h)
      exact readCall_of_isKept hmsg hkept

theorem readCall_sayInTunnelToAll {t : ShmTunnel} {numClients : ℕ} {type : TunnelMessageType}
    {msg : String} (hkept : type.isKept = true) :
    ∀ p ∈ pushes (t.sayInTunnelToAll numClients type msg), readCall p.2 = none := by
  intro p hp
  obtain ⟨source, hpush⟩ := mem_pushes hp
  obtain ⟨idx, -, hsaid⟩ := List.mem_flatMap.mp hpush
  exact readCall_sayInTunnel hkept hsaid

end ShmSegment

namespace ShmTunnel

theorem mClientId_handlePopped (t : ShmTunnel) (source : ℕ) (msg : MessageBuffer) :
    (t.handlePopped source msg).1.mClientId = t.mClientId := by
  unfold handlePopped handleHello
  repeat' split
  all_goals rfl

theorem mClientId_forward (t : ShmTunnel) (now : TimePoint) (type : TunnelMessageType)
    (fromNode : NodeId) (message : List UInt8) (toNode : Option NodeId) :
    (t.forward now type fromNode message toNode).1.mClientId = t.mClientId := by
  unfold forward
  repeat' split
  all_goals rfl

theorem isRunning_forward (t : ShmTunnel) (now : TimePoint) (type : TunnelMessageType)
    (fromNode : NodeId) (message : List UInt8) (toNode : Option NodeId) :
    (t.forward now type fromNode message toNode).1.isRunning = t.isRunning := by
  unfold forward
  repeat' split
  all_goals rfl

theorem localCalls_sayInTunnel (t : ShmTunnel) (type : TunnelMessageType) (msg : String)
    (idx : ℕ) : localCalls (t.sayInTunnel type msg idx) = [] := by
  simp only [sayInTunnel]
  split <;> rfl

/-- The gateways are handed what the envelope carries, and only a reply is pushed. -/
theorem handlePopped_snd {t : ShmTunnel} (hrun : t.isRunning = true) (source : ℕ)
    (msg : MessageBuffer) :
    (localCalls (t.handlePopped source msg).2).map LocalMessage.call =
        (ShmSegment.readCall msg).toList ∧
      ∀ p ∈ ShmSegment.pushes (t.handlePopped source msg).2,
        ShmSegment.readCall p.2 = none := by
  simp only [handlePopped, hrun, if_true, ShmSegment.readCall]
  cases decapsulate msg with
  | none => simp [localCalls, ShmSegment.pushes]
  | some r =>
      obtain ⟨⟨fromNode, type, toNode, size⟩, payload⟩ := r
      cases type with
      | tunnelHello =>
          simp only [handleHello, TunnelMessageType.isKept, if_true]
          cases t.tunnelClientStates.find source with
          | none =>
              simp only [localCalls_sayInTunnel]
              refine ⟨rfl, ?_⟩
              intro p hp
              obtain ⟨source', hpush⟩ := ShmSegment.mem_pushes hp
              exact ShmSegment.readCall_sayInTunnel rfl hpush
          | some state => simp [localCalls, ShmSegment.pushes]
      | _ =>
          simp [localCalls, localMessage?, LocalMessage.call, ShmSegment.pushes,
            TunnelMessageType.isKept]

theorem nodup_recipients (t : ShmTunnel) (type : TunnelMessageType) (toNode : Option NodeId) :
    (t.recipients type toNode).Nodup := by
  unfold recipients
  split
  · cases toNode with
    | none => exact List.nodup_nil
    | some node => cases hfind : t.remoteNodeIdToTunnelClientIdx.find node <;> simp [hfind]
  · exact List.nodup_range.filter _

end ShmTunnel

namespace ShmSegment

/-! ## The pushes that are still to be made -/

variable {s : ShmSegment} {source dest : ℕ}

/-- Of the pushes of one message, at most one goes to a client. -/
theorem calls_map_recipients {idxs : List ℕ} (hnodup : idxs.Nodup) (dest : ℕ)
    (msg : MessageBuffer) : calls dest (idxs.map (fun idx ↦ (idx, msg))) =
      if dest ∈ idxs then (readCall msg).toList else [] := by
  rw [calls, List.filterMap_map]
  exact filterMap_ite_of_nodup hnodup dest (readCall msg)

theorem calls_pushes_forward (t : ShmTunnel) {now : TimePoint} {type : TunnelMessageType}
    {fromNode : NodeId} {message : List UInt8} {toNode : Option NodeId} (dest : ℕ)
    (hfits : encapsulatedSize type message.length ≤ kMaxMessageSize) :
    calls dest (pushes (t.forward now type fromNode message toNode).2) =
      if (shouldForward t.mDedupCache now type fromNode message).1 = true ∧
          (encapsulate ⟨fromNode, type, toNode, 0⟩ message).isSome = true ∧
          dest ∈ t.recipients type toNode ∧ type.isKept = false then
        [⟨type, fromNode, message, if type.hasToNode then toNode else none⟩]
      else [] := by
  rw [ShmTunnel.forward]
  rcases shouldForward t.mDedupCache now type fromNode message with ⟨passes, cache⟩
  cases passes with
  | false => simp [pushes]
  | true =>
      cases hmsg : encapsulate ⟨fromNode, type, toNode, 0⟩ message with
      | none => simp [pushes]
      | some msg =>
          have hpushes : pushes ((t.recipients type toNode).map
              (fun clientIdx ↦ ShmOutput.push clientIdx t.mClientId msg)) =
                (t.recipients type toNode).map (fun idx ↦ (idx, msg)) := by
            rw [pushes, List.filterMap_map, ← List.filterMap_eq_map]
            rfl
          simp only [hpushes, calls_map_recipients (t.nodup_recipients type toNode)]
          cases hkept : type.isKept with
          | true => simp [readCall_of_isKept hmsg hkept]
          | false => simp [readCall_of_fits hmsg hkept hfits]

theorem calls_aimed_self (source dest : ℕ) (clientIdx : ℕ) (msg : MessageBuffer)
    (rest : List (ℕ × MessageBuffer)) :
    calls source (aimed dest source ((clientIdx, msg) :: rest)) ++ calls dest rest =
      calls dest ((clientIdx, msg) :: rest) := by
  rw [calls_cons, aimed]
  by_cases hidx : clientIdx = dest
  · rw [if_pos hidx, if_pos hidx, calls_cons, if_pos rfl, calls_nil, List.append_nil]
  · rw [if_neg hidx, if_neg hidx, calls_nil]

theorem calls_aimed_of_ne {slot : ℕ} (hne : slot ≠ source) (dest : ℕ)
    (msgs : List (ℕ × MessageBuffer)) : calls source (aimed dest slot msgs) = [] := by
  cases msgs with
  | nil => rfl
  | cons p rest =>
      rw [aimed]
      split
      · rw [calls_cons, if_neg hne, calls_nil, List.append_nil]
      · rfl

theorem calls_aimed_of_kept {slot : ℕ} {msgs : List (ℕ × MessageBuffer)}
    (h : ∀ p ∈ msgs, readCall p.2 = none) (source dest : ℕ) :
    calls source (aimed dest slot msgs) = [] := by
  cases msgs with
  | nil => rfl
  | cons p rest =>
      rw [aimed]
      split
      · rw [calls_cons, h p List.mem_cons_self]
        simp
      · rfl

theorem client_setClient (slot : ℕ) (c : ShmThreads) (slot' : ℕ) :
    (s.setClient slot c).client slot' = if slot' = slot then c else s.client slot' := by
  simp only [setClient, Function.update_apply]

@[simp] theorem client_setMailbox (idx : ℕ) (mailbox : SharedMessages MessageBuffer) :
    (s.setMailbox idx mailbox).client = s.client := rfl

@[simp] theorem client_pushInto (idx source : ℕ) (msg : MessageBuffer) :
    (s.pushInto idx source msg).client = s.client := rfl

/-- A client's pushes are a queue: it takes what is offered and gives what is pushed. -/
theorem Working.pushed_append (h : s.Working) {e : ShmSegmentEvent} (hfits : Fits e)
    (hkeep : constructs source e = true → (s.client source).pushes = []) :
    calls source (pushed dest s e) ++
        calls dest ((EventMachine.next machine s e).client source).pushes =
      calls dest (s.client source).pushes ++ offered source dest s e := by
  cases e with
  | construct slot numClients =>
      have hhello : calls dest (pushes ((ShmTunnel.create slot).sayInTunnelToAll numClients
          .tunnelHello "Hello")) = [] := calls_of_kept (readCall_sayInTunnelToAll rfl)
      simp only [EventMachine.next, machine, construct, pushed, offered]
      by_cases hsource : source = slot
      · subst hsource
        rw [hkeep (beq_self_eq_true source)]
        split
        · simp
        · simp [client_setClient, hhello]
      · split
        · simp [Function.update_of_ne hsource]
        · simp [client_setClient, hsource]
  | push slot =>
      simp only [EventMachine.next, machine, push, pushed, offered, List.append_nil, h.own]
      cases hpushes : (s.client slot).pushes with
      | nil => simp [aimed]
      | cons p rest =>
          simp only [client_pushInto, client_setClient]
          by_cases hslot : source = slot
          · subst hslot
            rw [if_pos rfl, hpushes]
            exact calls_aimed_self source dest p.1 p.2 rest
          · rw [if_neg hslot, calls_aimed_of_ne (Ne.symm hslot), List.nil_append]
  | pushFarewell slot =>
      simp only [EventMachine.next, machine, pushFarewell, pushed, offered, List.append_nil]
      rw [calls_aimed_of_kept (h.seated slot).kept, List.nil_append]
      cases hfarewell : (s.client slot).farewell with
      | nil => rfl
      | cons p rest =>
          simp only [client_pushInto, client_setClient]
          split
          · next hslot => rw [hslot]
          · rfl
  | listen slot =>
      simp only [EventMachine.next, machine, listen, pushed, offered, List.append_nil, calls_nil,
        List.nil_append]
      by_cases hloop : isAtLoop (s.client slot) = true
      · have hnone : (s.client slot).pushes = [] := by
          simpa [isAtLoop] using (Bool.and_eq_true_iff.mp hloop).2
        simp only [hloop, if_true]
        cases hpopped : s.popped slot with
        | none =>
            simp only [client_setClient, client_setMailbox]
            split
            · next hslot => rw [hslot]
            · rfl
        | some b =>
            by_cases hrun : (s.client slot).tunnel.isRunning = true
            · simp only [hrun, if_true, client_setClient, client_setMailbox]
              split
              · next hslot =>
                  have hreply := (ShmTunnel.handlePopped_snd hrun b.1 b.2).2
                  rw [hslot, hnone, calls_of_kept hreply, calls_nil]
              · rfl
            · simp only [hrun, if_false, Bool.false_eq_true, client_setClient, client_setMailbox]
              split
              · next hslot => rw [hslot]
              · rfl
      · simp [hloop]
  | forward slot now type fromNode message toNode =>
      simp only [EventMachine.next, machine, forward, pushed, offered, calls_nil, List.nil_append]
      by_cases hslot : slot = source
      · subst hslot
        cases hpushes : (s.client slot).pushes with
        | nil =>
            simp only [List.isEmpty_nil, if_true, client_setClient, calls_nil, List.nil_append,
              true_and]
            exact calls_pushes_forward _ dest hfits
        | cons p rest => simp [hpushes]
      · simp only [hslot, false_and, if_false, List.append_nil]
        split
        · rw [client_setClient, if_neg (Ne.symm hslot)]
        · rfl
  | stopListening slot numClients =>
      simp only [EventMachine.next, machine, stopListening, pushed, offered, calls_nil,
        List.nil_append, List.append_nil, client_setClient, client_setMailbox]
      split
      · next hslot => rw [hslot]
      · rfl

/-! ## The mailbox -/

theorem MailboxStep.taken_append {queue taken pushed queue' : List (ℕ × MessageBuffer)}
    {cleared : Bool} (h : MailboxStep queue taken pushed cleared queue') :
    (taken ++ queue').Sublist (queue ++ pushed) := by
  cases h with
  | cleared => exact List.nil_sublist _
  | accepted b hroom => exact List.Sublist.refl _
  | refused b hfull => exact List.sublist_append_left _ _
  | popped b rest hqueue => simp [hqueue]
  | same => simp

theorem MailboxStep.taken_append_eq {queue taken pushed queue' : List (ℕ × MessageBuffer)}
    {cleared : Bool} (h : MailboxStep queue taken pushed cleared queue')
    (hempty : cleared = true → queue = [])
    (hroom : pushed ≠ [] → queue.length < maxMessages - 1) :
    taken ++ queue' = queue ++ pushed := by
  cases h with
  | cleared => rw [hempty rfl]
  | accepted b _ => rfl
  | refused b hfull => exact absurd (hroom (List.cons_ne_nil _ _)) hfull
  | popped b rest hqueue => simp [hqueue]
  | same => simp

/-- What is taken from the mailbox is handed on by a client that runs, and dropped by
one that has been stopped. -/
theorem Working.handed_eq (h : s.Working) (source dest : ℕ) (e : ShmSegmentEvent) :
    handed source dest s e =
      if (s.client dest).tunnel.isRunning = true then calls source (taken dest s e) else [] := by
  cases e with
  | listen slot =>
      simp only [handed, taken, h.own]
      by_cases hslot : slot = dest
      · subst hslot
        simp only [emit, machine, listen, true_and, and_true]
        by_cases hloop : isAtLoop (s.client slot) = true
        · cases hpopped : s.popped slot with
          | none => simp
          | some b =>
              cases hrun : (s.client slot).tunnel.isRunning with
              | false => simp [hloop]
              | true =>
                  have hcalls := (ShmTunnel.handlePopped_snd hrun b.1 b.2).1
                  simp only [Option.map_some, Option.some.injEq, hloop, if_true, List.map_map,
                    Option.toList_some]
                  rw [calls_cons, calls_nil, List.append_nil, ← hcalls]
                  rfl
        · simp [hloop]
      · simp [hslot]
  | _ => simp [handed, taken]

theorem Working.handed_append (h : s.Working) (source dest : ℕ) (e : ShmSegmentEvent) :
    (handed source dest s e ++
      calls source ((EventMachine.next machine s e).queued dest)).Sublist
        (calls source (s.queued dest) ++ calls source (pushed dest s e)) := by
  have hmailbox := ((h.sound.mailboxStep e dest).taken_append).filterMap
    (fun p ↦ if p.1 = source then readCall p.2 else none)
  have hhanded : (handed source dest s e).Sublist (calls source (taken dest s e)) := by
    rw [h.handed_eq]
    split
    · exact List.Sublist.refl _
    · exact List.nil_sublist _
  rw [List.filterMap_append, List.filterMap_append] at hmailbox
  exact (hhanded.append_right _).trans hmailbox

theorem taken_ne_nil {e : ShmSegmentEvent} (hown : ∀ slot, (s.client slot).tunnel.mClientId = slot)
    (h : taken dest s e ≠ []) : e = .listen dest := by
  cases e with
  | listen slot =>
      simp only [taken, hown] at h
      split at h
      · next hloop => rw [hloop.2]
      · exact absurd rfl h
  | _ => exact absurd rfl h

theorem Working.handed_append_eq (h : s.Working) {e : ShmSegmentEvent}
    (hlossless : Lossless source dest s e) :
    handed source dest s e ++ calls source ((EventMachine.next machine s e).queued dest) =
      calls source (s.queued dest) ++ calls source (pushed dest s e) := by
  obtain ⟨hclear, hroom, -, hruns⟩ := hlossless
  have hmailbox := (h.sound.mailboxStep e dest).taken_append_eq hclear (fun hpushed ↦ by
    have hfull := (h.sound dest).isFull_iff
    rw [hroom hpushed] at hfull
    by_contra hlt
    cases hfull.mpr hlt)
  have hhanded : handed source dest s e = calls source (taken dest s e) := by
    rw [h.handed_eq]
    by_cases htaken : taken dest s e = []
    · rw [htaken, calls_nil, ite_self]
    · rw [if_pos (hruns (taken_ne_nil h.own htaken))]
  rw [hhanded, ← calls_append, ← calls_append, hmailbox]

/-! ## Runs -/

theorem working_initial : initial.Working where
  sound := sound_initial
  seated slot := ⟨rfl, fun p hp ↦ by cases hp⟩

@[simp] theorem underway_initial (source dest : ℕ) : underway source dest initial = [] := by
  have hqueued : initial.queued dest = [] := holds_zeroMailbox.queued_eq
  rw [underway, hqueued]
  rfl

theorem Working.seated_update (h : s.Working) {s' : ShmSegment} {c : ShmThreads} (slot : ℕ)
    (hclient : s'.client = Function.update s.client slot c) (hc : Seated slot c) (slot' : ℕ) :
    Seated slot' (s'.client slot') := by
  rw [hclient, Function.update_apply]
  split
  · next hslot => exact hslot ▸ hc
  · exact h.seated slot'

theorem seated_create {slot : ℕ} {msgs : List (ℕ × MessageBuffer)} :
    Seated slot ⟨ShmTunnel.create slot, true, msgs, []⟩ :=
  ⟨rfl, fun p hp ↦ by cases hp⟩

theorem Working.next (h : s.Working) (e : ShmSegmentEvent) :
    (EventMachine.next machine s e).Working := by
  refine ⟨h.sound.next e, fun slot' ↦ ?_⟩
  cases e with
  | construct slot numClients =>
      simp only [EventMachine.next, machine, construct]
      split
      · exact h.seated_update slot rfl seated_create slot'
      · exact h.seated_update slot rfl seated_create slot'
  | push slot =>
      simp only [EventMachine.next, machine, push]
      split
      · exact h.seated slot'
      · refine h.seated_update slot rfl ?_ slot'
        exact ⟨h.own slot, (h.seated slot).kept⟩
  | pushFarewell slot =>
      simp only [EventMachine.next, machine, pushFarewell]
      cases hfarewell : (s.client slot).farewell with
      | nil => exact h.seated slot'
      | cons p rest =>
          refine h.seated_update slot rfl ?_ slot'
          refine ⟨h.own slot, ?_⟩
          intro q hq
          apply (h.seated slot).kept q
          rw [hfarewell]
          exact List.mem_cons_of_mem _ hq
  | listen slot =>
      simp only [EventMachine.next, machine, listen]
      split
      · split
        · split
          · refine h.seated_update slot rfl ?_ slot'
            exact ⟨(ShmTunnel.mClientId_handlePopped ..).trans (h.own slot),
              (h.seated slot).kept⟩
          · refine h.seated_update slot rfl ?_ slot'
            exact ⟨h.own slot, (h.seated slot).kept⟩
        · refine h.seated_update slot rfl ?_ slot'
          exact ⟨h.own slot, (h.seated slot).kept⟩
      · exact h.seated slot'
  | forward slot now type fromNode message toNode =>
      simp only [EventMachine.next, machine, forward]
      split
      · refine h.seated_update slot rfl ?_ slot'
        exact ⟨(ShmTunnel.mClientId_forward ..).trans (h.own slot), (h.seated slot).kept⟩
      · exact h.seated slot'
  | stopListening slot numClients =>
      refine h.seated_update slot rfl ?_ slot'
      refine ⟨h.own slot, ?_⟩
      intro p hp
      rcases List.mem_append.mp hp with hold | hnew
      · exact (h.seated slot).kept p hold
      · exact readCall_sayInTunnelToAll rfl p hnew

theorem Working.underway_step (h : s.Working) (source dest : ℕ) {e : ShmSegmentEvent}
    (hfits : Fits e) :
    (handed source dest s e ++ underway source dest (EventMachine.next machine s e)).Sublist
      (underway source dest s ++ offered source dest s e) := by
  refine congruent_sublist.comp ?_ (h.handed_append source dest e)
  by_cases hkeep : constructs source e = true → (s.client source).pushes = []
  · rw [h.pushed_append hfits hkeep]
  · -- a new sender has none of the old one's pushes
    obtain ⟨hconstructs, -⟩ := Classical.not_imp.mp hkeep
    cases e with
    | construct slot numClients =>
        obtain rfl : slot = source := beq_iff_eq.mp hconstructs
        have hpending :
            calls dest ((EventMachine.next machine s (.construct slot numClients)).client
              slot).pushes = [] := by
          simp only [EventMachine.next, machine, construct]
          split
          · simp
          · simp only [client_setClient, if_true]
            exact calls_of_kept (readCall_sayInTunnelToAll rfl)
        rw [hpending]
        exact List.nil_sublist _
    | _ => cases hconstructs

/-! ## Clients that are there -/

/-- A client before it is stopped; what has not been constructed has nothing to push. -/
structure InPlace (c : ShmThreads) : Prop where
  running : c.tunnel.isRunning = true
  farewell : c.farewell = []
  absent : c.listening = false → c.pushes = []

/-- The clients are in place, and before the first one nothing has happened. -/
structure Staffed (s : ShmSegment) : Prop where
  clients : ∀ slot, InPlace (s.client slot)
  new : (s.client 0).listening = false →
    (∀ slot, (s.client slot).listening = false) ∧ ∀ idx, s.queued idx = []

theorem staffed_initial : initial.Staffed where
  clients _ := ⟨rfl, rfl, fun _ ↦ rfl⟩
  new _ := ⟨fun _ ↦ rfl, fun _ ↦ holds_zeroMailbox.queued_eq⟩

/-- A step that replaces one client keeps the others in place. -/
theorem inPlace_update {s' : ShmSegment} {c : ShmThreads} (h : ∀ slot, InPlace (s.client slot))
    {slot : ℕ} (hclient : s'.client = Function.update s.client slot c) (hc : InPlace c)
    (hlistens : (s.client slot).listening = true → c.listening = true) (slot' : ℕ) :
    InPlace (s'.client slot') ∧
      ((s.client slot').listening = true → (s'.client slot').listening = true) := by
  rw [hclient, Function.update_apply]
  split
  · next hslot => exact ⟨hc, fun h' ↦ hlistens (hslot ▸ h')⟩
  · exact ⟨h slot', id⟩

/-- Before the first client nothing moves. -/
theorem Staffed.next_eq_self (h : s.Staffed) (hnew : (s.client 0).listening = false)
    {e : ShmSegmentEvent} (he : InService s e) :
    (∃ numClients, e = .construct 0 numClients) ∨ EventMachine.next machine s e = s := by
  have hidle := (h.new hnew).1
  cases e with
  | construct slot numClients =>
      obtain rfl : slot = 0 := by simpa [hnew] using he.2
      exact Or.inl ⟨numClients, rfl⟩
  | push slot =>
      simp [EventMachine.next, machine, push, (h.clients slot).absent (hidle slot)]
  | pushFarewell slot =>
      simp [EventMachine.next, machine, pushFarewell, (h.clients slot).farewell]
  | listen slot => simp [EventMachine.next, machine, listen, isAtLoop, hidle slot]
  | forward slot => simp [InService, hidle slot] at he
  | stopListening => exact he.elim

theorem Staffed.next_client (h : s.Staffed) {e : ShmSegmentEvent} (he : InService s e)
    (slot' : ℕ) :
    InPlace ((EventMachine.next machine s e).client slot') ∧
      ((s.client slot').listening = true →
        ((EventMachine.next machine s e).client slot').listening = true) := by
  cases e with
  | construct slot numClients =>
      simp only [EventMachine.next, machine, construct]
      split
      · exact inPlace_update h.clients rfl ⟨rfl, rfl, fun hnot ↦ by cases hnot⟩ (fun _ ↦ rfl) slot'
      · exact inPlace_update h.clients rfl ⟨rfl, rfl, fun hnot ↦ by cases hnot⟩ (fun _ ↦ rfl) slot'
  | push slot =>
      obtain ⟨hrun, hfarewell, habsent⟩ := h.clients slot
      simp only [EventMachine.next, machine, push]
      split
      · exact ⟨h.clients slot', id⟩
      · rename_i idx msg rest hpushes
        refine inPlace_update h.clients rfl ?_ ?_ slot'
        · exact ⟨hrun, hfarewell, fun hnot ↦ by simp [habsent hnot] at hpushes⟩
        · exact id
  | pushFarewell slot =>
      simp only [EventMachine.next, machine, pushFarewell, (h.clients slot).farewell]
      exact ⟨h.clients slot', id⟩
  | listen slot =>
      obtain ⟨hrun, hfarewell, habsent⟩ := h.clients slot
      simp only [EventMachine.next, machine, listen, hrun, if_true]
      split
      · rename_i hloop
        have hlistens : (s.client slot).listening = true := (Bool.and_eq_true_iff.mp hloop).1
        split
        · refine inPlace_update h.clients rfl ?_ ?_ slot'
          · exact ⟨(ShmTunnel.isRunning_handlePopped ..).trans hrun, hfarewell,
              fun hnot ↦ absurd hlistens (by simpa using hnot)⟩
          · exact id
        · refine inPlace_update h.clients rfl ?_ ?_ slot'
          · exact ⟨hrun, hfarewell, fun hnot ↦ by cases hnot⟩
          · exact fun _ ↦ rfl
      · exact ⟨h.clients slot', id⟩
  | forward slot now type fromNode message toNode =>
      obtain ⟨hrun, hfarewell, -⟩ := h.clients slot
      have hlistens : (s.client slot).listening = true := he
      simp only [EventMachine.next, machine, forward]
      split
      · refine inPlace_update h.clients rfl ?_ ?_ slot'
        · exact ⟨(ShmTunnel.isRunning_forward ..).trans hrun, hfarewell,
            fun hnot ↦ absurd hlistens (by simpa using hnot)⟩
        · exact id
      · exact ⟨h.clients slot', id⟩
  | stopListening => exact he.elim

theorem Staffed.next (h : s.Staffed) {e : ShmSegmentEvent} (he : InService s e) :
    (EventMachine.next machine s e).Staffed where
  clients slot := (h.next_client he slot).1
  new := by
    intro hlater
    have hnew : (s.client 0).listening = false := by
      by_contra hlistens
      rw [Bool.not_eq_false] at hlistens
      exact absurd ((h.next_client he 0).2 hlistens) (by simp [hlater])
    obtain ⟨numClients, rfl⟩ | hsame := h.next_eq_self hnew he
    · simp [EventMachine.next, machine, construct] at hlater
    · rw [hsame]
      exact h.new hnew

theorem Staffed.lossless (h : s.Staffed) (source dest : ℕ) {e : ShmSegmentEvent}
    (he : InService s e) (hroom : HasRoom dest s e) : Lossless source dest s e := by
  refine ⟨fun hclears ↦ ?_, hroom, fun hconstructs ↦ ?_, fun _ ↦ (h.clients dest).running⟩
  · cases e with
    | construct slot =>
        obtain rfl : slot = 0 := beq_iff_eq.mp hclears
        exact (h.new he.1).2 dest
    | stopListening => exact he.elim
    | _ => cases hclears
  · cases e with
    | construct slot =>
        obtain rfl : slot = source := beq_iff_eq.mp hconstructs
        exact (h.clients slot).absent he.1
    | _ => cases hconstructs

/-- What the gateways of a client are handed from another client is, in order, a part of
what these have forwarded to it: nothing is made up, turned round or handed twice. -/
theorem handed_sublist (source dest : ℕ) (es : List ShmSegmentEvent)
    (h : Along machine (fun s e ↦ InService s e ∧ Fits e) initial es) :
    (gathered machine (handed source dest) initial es).Sublist
      (gathered machine (offered source dest) initial es) := by
  apply gathered_sublist machine (offered source dest) (handed source dest)
    (underway source dest) (I := Working) (P := fun s e ↦ InService s e ∧ Fits e)
  · exact fun _ e h _ ↦ Working.next h e
  · exact fun _ e h he ↦ h.underway_step source dest he.2
  · exact working_initial
  · exact underway_initial source dest
  · exact h

/-- Where the mailbox has room, what has not been handed on yet is on its way. -/
theorem handed_append_underway (source dest : ℕ) (es : List ShmSegmentEvent)
    (h : Along machine (fun s e ↦ InService s e ∧ Fits e) initial es)
    (hroom : Along machine (HasRoom dest) initial es) :
    gathered machine (handed source dest) initial es ++
        underway source dest (run machine initial es) =
      gathered machine (offered source dest) initial es := by
  have hconserved := congruent_eq.conserved machine (offered source dest) (handed source dest)
    (underway source dest) (I := fun s ↦ Working s ∧ Staffed s)
    (P := fun s e ↦ (InService s e ∧ Fits e) ∧ HasRoom dest s e)
    (fun s e hs he ↦ ⟨Working.next hs.1 e, Staffed.next hs.2 he.1.1⟩)
    (fun s e hs he ↦ by
      have hlossless := hs.2.lossless source dest he.1.1 he.2
      exact congruent_eq.comp (hs.1.pushed_append he.1.2 hlossless.2.2.1)
        (hs.1.handed_append_eq hlossless))
    ⟨working_initial, staffed_initial⟩ ((along_and ..).mpr ⟨h, hroom⟩)
  rwa [underway_initial, List.nil_append] at hconserved

/-! ## Mailboxes that nobody reads -/

theorem MailboxStep.unattended {queue pushed queue' : List (ℕ × MessageBuffer)}
    {cleared : Bool} (h : MailboxStep queue [] pushed cleared queue')
    (hempty : cleared = true → queue = []) {all : List (ℕ × MessageBuffer)}
    (hqueue : queue = all.take (maxMessages - 1)) :
    queue' = (all ++ pushed).take (maxMessages - 1) := by
  cases h with
  | cleared => rw [List.append_nil, ← hqueue, hempty rfl]
  | accepted b hroom =>
      have hall : all.length < maxMessages - 1 := by
        rw [hqueue, List.length_take] at hroom
        omega
      rw [hqueue, List.take_of_length_le hall.le, List.take_of_length_le]
      rw [List.length_append]
      exact hall
  | refused b hfull =>
      have hall : maxMessages - 1 ≤ all.length := by
        rw [hqueue, List.length_take] at hfull
        omega
      rw [hqueue, List.take_append_of_le_length hall]
  | same => rwa [List.append_nil]

/-- The mailbox of a client that is not there keeps the oldest messages that were pushed
into it, for the client that is given its slot later. -/
theorem queued_of_unattended (idx : ℕ) (es : List ShmSegmentEvent)
    (h : Along machine (Unattended idx) initial es) :
    (run machine initial es).queued idx =
      (gathered machine (pushed idx) initial es).take (maxMessages - 1) := by
  induction es using List.reverseRecOn with
  | nil => exact holds_zeroMailbox.queued_eq
  | append_singleton es e ih =>
      obtain ⟨hbefore, htaken, hcleared⟩ := (along_concat ..).mp h
      have hstep := (sound_run es).mailboxStep e idx
      rw [htaken] at hstep
      rw [run_concat, gathered_concat]
      exact hstep.unattended hcleared (ih hbefore)

/-! ## Two clients -/

def sendState (slot : ℕ) : ShmSegmentEvent :=
  .forward slot 0 .broadcast default [1, 2, 3] none

/-- The first client forwards a broadcast before the second one comes, and that one
forwards one in turn. -/
def twoClients : List ShmSegmentEvent :=
  [.construct 0 1, sendState 0, .push 0, .push 0, .push 0, .push 0,
    .construct 1 2, .push 1, sendState 1, .push 1, .listen 0, .push 0, .listen 0]

theorem handed_twoClients :
    (gathered machine (handed 1 0) initial twoClients).Sublist
        (gathered machine (offered 1 0) initial twoClients) ∧
      gathered machine (handed 1 0) initial twoClients =
        [⟨.broadcast, default, [1, 2, 3], none⟩] :=
  ⟨handed_sublist 1 0 twoClients (by decide +kernel), by decide +kernel⟩

theorem handed_append_underway_twoClients :
    gathered machine (handed 1 0) initial twoClients ++
        underway 1 0 (run machine initial twoClients) =
      gathered machine (offered 1 0) initial twoClients :=
  handed_append_underway 1 0 twoClients (by decide +kernel) (by decide +kernel)

/-- The first broadcast waits for the second client. -/
theorem queued_twoClients :
    (run machine initial twoClients).queued 1 =
        (gathered machine (pushed 1) initial twoClients).take (maxMessages - 1) ∧
      ((run machine initial twoClients).queued 1).length = 2 :=
  ⟨queued_of_unattended 1 twoClients (by decide +kernel), by decide +kernel⟩

end ShmSegment

end LinkExtender
