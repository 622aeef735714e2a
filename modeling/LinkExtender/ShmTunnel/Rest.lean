import LinkExtender.ShmTunnel.Delivery
import Mathlib.Algebra.BigOperators.Group.Finset.Piecewise
import Mathlib.Algebra.Order.BigOperators.Group.Finset

/-!
# The segment comes to rest

A HELLO of a client that is not known yet is answered by a HELLO.  While no gateway
forwards anything and no client comes or goes, every push and every pop lowers a
potential, so clients that greet each other fall silent.
-/

namespace LinkExtender

namespace ShmSegment

open EventMachine

/-- What a message costs while it waits in a mailbox.  A BYE makes its source unknown
again, and the next HELLO of it is answered. -/
def weight (p : ℕ × MessageBuffer) : ℕ :=
  if (decapsulate p.2).map (fun r ↦ r.1.type) = some .tunnelBye then 3 else 1

def weights (msgs : List (ℕ × MessageBuffer)) : ℕ := (msgs.map weight).sum

/-- What the pushes that are still to be made cost. -/
def pushWeights (msgs : List (ℕ × MessageBuffer)) : ℕ := (msgs.map (fun p ↦ weight p + 1)).sum

def strangers (t : ShmTunnel) : ℕ :=
  ∑ source ∈ Finset.range maxClients, if t.tunnelClientStates.find source = none then 2 else 0

def standing (c : ShmThreads) : ℕ :=
  pushWeights c.pushes + pushWeights c.farewell + strangers c.tunnel

def potential (s : ShmSegment) : ℕ :=
  ∑ idx ∈ Finset.range maxClients, weights (s.queued idx) +
    ∑ slot ∈ Finset.range maxClients, standing (s.client slot)

/-- A client makes a push that it owes, or takes a message out of its mailbox. -/
def Possible (s : ShmSegment) : ShmSegmentEvent → Prop
  | .push slot => slot < maxClients ∧ (s.client slot).pushes ≠ []
  | .pushFarewell slot => slot < maxClients ∧ (s.client slot).farewell ≠ []
  | .listen slot =>
      slot < maxClients ∧ isAtLoop (s.client slot) = true ∧ (s.popped slot).isSome = true
  | _ => False

instance (s : ShmSegment) : ∀ e, Decidable (s.Possible e)
  | .push slot =>
      inferInstanceAs (Decidable (slot < maxClients ∧ (s.client slot).pushes ≠ []))
  | .pushFarewell slot =>
      inferInstanceAs (Decidable (slot < maxClients ∧ (s.client slot).farewell ≠ []))
  | .listen slot => inferInstanceAs (Decidable (slot < maxClients ∧
      isAtLoop (s.client slot) = true ∧ (s.popped slot).isSome = true))
  | .construct .. | .forward .. | .stopListening .. => isFalse not_false

/-- The client that an event is about. -/
def actor : ShmSegmentEvent → ℕ
  | .construct slot _ | .push slot | .pushFarewell slot | .listen slot
  | .forward slot _ _ _ _ _ | .stopListening slot _ => slot

/-- All messages in the mailboxes come from clients with a slot of the segment. -/
structure Confined (s : ShmSegment) : Prop where
  working : s.Working
  sources : ∀ idx, ∀ p ∈ s.queued idx, p.1 < maxClients

/-! ## The mailboxes -/

variable {s : ShmSegment}

@[simp] theorem weights_nil : weights [] = 0 := rfl

@[simp] theorem weights_append (xs ys : List (ℕ × MessageBuffer)) :
    weights (xs ++ ys) = weights xs + weights ys := by
  simp [weights]

@[simp] theorem weights_cons (p : ℕ × MessageBuffer) (msgs : List (ℕ × MessageBuffer)) :
    weights (p :: msgs) = weight p + weights msgs := by
  simp [weights]

@[simp] theorem pushWeights_nil : pushWeights [] = 0 := rfl

@[simp] theorem pushWeights_cons (p : ℕ × MessageBuffer) (msgs : List (ℕ × MessageBuffer)) :
    pushWeights (p :: msgs) = weight p + 1 + pushWeights msgs := by
  simp [pushWeights]

theorem weight_pos (p : ℕ × MessageBuffer) : 0 < weight p := by
  unfold weight
  split <;> omega

theorem MailboxStep.weights_le {queue taken pushed queue' : List (ℕ × MessageBuffer)}
    {cleared : Bool} (h : MailboxStep queue taken pushed cleared queue') :
    weights taken + weights queue' ≤ weights queue + weights pushed := by
  have hsublist := (h.taken_append.map weight).sum_le_sum (fun _ _ ↦ Nat.zero_le _)
  simpa [weights] using hsublist

/-- A push weighs no more than its message, whether there is a mailbox for it or not. -/
theorem sum_weights_aimed (source : ℕ) (p : ℕ × MessageBuffer)
    (rest : List (ℕ × MessageBuffer)) :
    ∑ idx ∈ Finset.range maxClients, weights (aimed idx source (p :: rest)) ≤ weight p := by
  have hone : ∀ idx, weights (aimed idx source (p :: rest)) =
      if p.1 = idx then weight p else 0 := by
    intro idx
    rw [aimed]
    split
    · rw [weights_cons, weights_nil, Nat.add_zero]
      rfl
    · rfl
  simp only [hone, Finset.sum_ite_eq]
  split
  · exact Nat.le_refl _
  · exact Nat.zero_le _

/-- What is taken and what is left weighs no more than what was there and what is
pushed. -/
theorem Confined.sum_weights_le (h : s.Confined) (e : ShmSegmentEvent) :
    ∑ idx ∈ Finset.range maxClients, weights (taken idx s e) +
        ∑ idx ∈ Finset.range maxClients, weights ((next machine s e).queued idx) ≤
      ∑ idx ∈ Finset.range maxClients, weights (s.queued idx) +
        ∑ idx ∈ Finset.range maxClients, weights (pushed idx s e) := by
  rw [← Finset.sum_add_distrib, ← Finset.sum_add_distrib]
  apply Finset.sum_le_sum
  intro idx _
  exact (h.working.sound.mailboxStep e idx).weights_le

/-! ## The clients -/

theorem sum_update_add {f : ℕ → ℕ} {n k : ℕ} (hk : k < n) (v : ℕ) :
    ∑ i ∈ Finset.range n, (if i = k then v else f i) + f k =
      ∑ i ∈ Finset.range n, f i + v := by
  have hmem : k ∈ Finset.range n := Finset.mem_range.mpr hk
  rw [← Finset.add_sum_erase _ f hmem,
    ← Finset.add_sum_erase _ (fun i ↦ if i = k then v else f i) hmem]
  have herase : ∑ i ∈ (Finset.range n).erase k, (if i = k then v else f i) =
      ∑ i ∈ (Finset.range n).erase k, f i := by
    apply Finset.sum_congr rfl
    intro i hi
    rw [if_neg (Finset.ne_of_mem_erase hi)]
  rw [herase, if_pos rfl]
  omega

theorem sum_standing_setClient {slot : ℕ} (hslot : slot < maxClients) (c : ShmThreads) :
    ∑ i ∈ Finset.range maxClients, standing ((s.setClient slot c).client i) +
        standing (s.client slot) =
      ∑ i ∈ Finset.range maxClients, standing (s.client i) + standing c := by
  have hupdate : ∀ i, standing ((s.setClient slot c).client i) =
      if i = slot then standing c else standing (s.client i) := by
    intro i
    rw [client_setClient]
    split <;> rfl
  simp only [hupdate]
  exact sum_update_add hslot (standing c)

theorem strangers_insert {t : ShmTunnel} {source : ℕ} (hsource : source < maxClients)
    (state : TunnelClientState) :
    strangers { t with tunnelClientStates := t.tunnelClientStates.insert source state } +
        (if t.tunnelClientStates.find source = none then 2 else 0) = strangers t := by
  have hfind : ∀ i, (if (t.tunnelClientStates.insert source state).find i = none then 2 else 0) =
      if i = source then 0 else if t.tunnelClientStates.find i = none then 2 else 0 := by
    intro i
    rw [PartialMap.find_insert]
    split <;> simp
  simp only [strangers, hfind]
  exact sum_update_add hsource 0

theorem strangers_erase_le {t : ShmTunnel} (source : ℕ) :
    strangers { t with tunnelClientStates := t.tunnelClientStates.erase source } ≤
      strangers t + 2 := by
  have hfind : ∀ i, (if (t.tunnelClientStates.erase source).find i = none then 2 else 0) =
      if i = source then 2 else if t.tunnelClientStates.find i = none then 2 else 0 := by
    intro i
    rw [PartialMap.find_erase]
    split <;> simp
  simp only [strangers, hfind]
  by_cases hsource : source < maxClients
  · have hsum := sum_update_add (f := fun i ↦ if t.tunnelClientStates.find i = none then 2 else 0)
      hsource 2
    omega
  · apply le_add_right
    apply Finset.sum_le_sum
    intro i hi
    rw [if_neg]
    rintro rfl
    exact hsource (Finset.mem_range.mp hi)

theorem pushWeights_sayInTunnel_le (t : ShmTunnel) (msg : String) (idx : ℕ) :
    pushWeights (pushes (t.sayInTunnel .tunnelHello msg idx)) ≤ 2 := by
  simp only [ShmTunnel.sayInTunnel]
  cases hmsg : encapsulate ⟨default, .tunnelHello, none, 0⟩
      (msg.toList.map (fun c ↦ UInt8.ofNat c.toNat)) with
  | none => exact Nat.zero_le _
  | some said =>
      have hweight : weight (idx, said) = 1 := by
        unfold weight
        cases hdecap : decapsulate said with
        | none => simp
        | some r => simp [type_of_encapsulate hmsg hdecap]
      simp [pushes, hweight]

/-- A turn of the loop pays for the reply out of the message. -/
theorem standing_handlePopped (t : ShmTunnel) {p : ℕ × MessageBuffer} (hp : p.1 < maxClients) :
    pushWeights (pushes (t.handlePopped p.1 p.2).2) + strangers (t.handlePopped p.1 p.2).1 <
      weight p + strangers t := by
  have hpos := weight_pos p
  unfold ShmTunnel.handlePopped
  by_cases hrun : t.isRunning = true
  · rw [if_pos hrun]
    cases hdecap : decapsulate p.2 with
    | none => simpa [pushes] using hpos
    | some r =>
        obtain ⟨⟨fromNode, type, toNode, size⟩, payload⟩ := r
        cases type with
        | tunnelHello =>
            have hinsert := @strangers_insert t p.1 hp
            cases hfind : t.tunnelClientStates.find p.1 with
            | none =>
                have hreply := pushWeights_sayInTunnel_le t "ello" p.1
                have hknown := hinsert .hello
                rw [if_pos hfind] at hknown
                simp only [ShmTunnel.handleHello, hfind]
                omega
            | some state =>
                have hknown := hinsert .connected
                rw [hfind, if_neg (by simp)] at hknown
                simp only [ShmTunnel.handleHello, hfind]
                change 0 + _ < _
                omega
        | tunnelBye =>
            have hbye : weight p = 3 := by simp [weight, hdecap]
            have hforgotten := @strangers_erase_le t p.1
            change 0 + strangers { t with
              tunnelClientStates := t.tunnelClientStates.erase p.1 } < _
            omega
        | _ =>
            change 0 + strangers t < _
            omega
  · rw [if_neg hrun]
    change 0 + strangers t < _
    omega

/-! ## One step -/

theorem Working.source_of_mem_pushed (h : s.Working) {e : ShmSegmentEvent} {idx : ℕ}
    {p : ℕ × MessageBuffer} (hp : p ∈ pushed idx s e) : p.1 = actor e := by
  have haimed : ∀ slot msgs, p ∈ aimed idx (s.client slot).tunnel.mClientId msgs → p.1 = slot := by
    intro slot msgs hp
    cases msgs with
    | nil => cases hp
    | cons q rest =>
        rw [aimed] at hp
        split at hp
        · rw [List.mem_singleton.mp hp]
          exact h.own slot
        · cases hp
  cases e with
  | push slot => exact haimed slot _ hp
  | pushFarewell slot => exact haimed slot _ hp
  | _ => cases hp

theorem Confined.next (h : s.Confined) {e : ShmSegmentEvent} (hactor : actor e < maxClients) :
    (next machine s e).Confined := by
  refine ⟨h.working.next e, ?_⟩
  intro idx p hp
  have hsublist := (h.working.sound.mailboxStep e idx).taken_append
  rcases List.mem_append.mp (hsublist.subset (List.mem_append_right _ hp)) with hold | hnew
  · exact h.sources idx p hold
  · rwa [h.working.source_of_mem_pushed hnew]

theorem actor_lt_of_possible {e : ShmSegmentEvent} (he : s.Possible e) :
    actor e < maxClients := by
  cases e with
  | push slot => exact he.1
  | pushFarewell slot => exact he.1
  | listen slot => exact he.1
  | _ => cases he

theorem sum_standing_congr {s' : ShmSegment} (h : s'.client = s.client) :
    ∑ i ∈ Finset.range maxClients, standing (s'.client i) =
      ∑ i ∈ Finset.range maxClients, standing (s.client i) := by
  rw [h]

theorem potential_next_lt (h : s.Confined) {e : ShmSegmentEvent} (he : s.Possible e) :
    potential (EventMachine.next machine s e) < potential s := by
  have hmail := h.sum_weights_le e
  unfold potential
  cases e with
  | push slot =>
      obtain ⟨hslot, hne⟩ := he
      obtain ⟨p, rest, hpushes⟩ := List.exists_cons_of_ne_nil hne
      have hpushed := sum_weights_aimed (s.client slot).tunnel.mClientId p rest
      have hclient := @sum_standing_setClient s slot hslot
        { s.client slot with pushes := rest }
      simp only [EventMachine.next, machine, push, pushed, taken, hpushes, weights_nil,
        Finset.sum_const_zero, client_pushInto] at hmail ⊢
      simp only [standing, hpushes, pushWeights_cons] at hclient ⊢
      omega
  | pushFarewell slot =>
      obtain ⟨hslot, hne⟩ := he
      obtain ⟨p, rest, hfarewell⟩ := List.exists_cons_of_ne_nil hne
      have hpushed := sum_weights_aimed (s.client slot).tunnel.mClientId p rest
      have hclient := @sum_standing_setClient s slot hslot
        { s.client slot with farewell := rest }
      simp only [EventMachine.next, machine, pushFarewell, pushed, taken, hfarewell, weights_nil,
        Finset.sum_const_zero, client_pushInto] at hmail ⊢
      simp only [standing, hfarewell, pushWeights_cons] at hclient ⊢
      omega
  | listen slot =>
      obtain ⟨hslot, hloop, hsome⟩ := he
      obtain ⟨p, hpopped⟩ := Option.isSome_iff_exists.mp hsome
      have hnone : (s.client slot).pushes = [] := by
        simpa [isAtLoop] using (Bool.and_eq_true_iff.mp hloop).2
      have htaken : taken slot s (.listen slot) = [p] := by
        simp [taken, hloop, h.working.own, hpopped]
      have hsource : p.1 < maxClients := by
        have hsublist := (h.working.sound.mailboxStep (.listen slot) slot).taken_append
        rw [htaken] at hsublist
        apply h.sources slot p
        simpa [pushed] using hsublist.subset List.mem_cons_self
      have hweight : weight p ≤
          ∑ idx ∈ Finset.range maxClients, weights (taken idx s (.listen slot)) := by
        have hsingle := Finset.single_le_sum (f := fun idx ↦ weights (taken idx s (.listen slot)))
          (fun _ _ ↦ Nat.zero_le _) (Finset.mem_range.mpr hslot)
        simpa [htaken] using hsingle
      simp only [pushed, weights_nil, Finset.sum_const_zero, Nat.add_zero] at hmail
      by_cases hrun : (s.client slot).tunnel.isRunning = true
      · have hturn := standing_handlePopped (s.client slot).tunnel hsource
        have hclient := @sum_standing_setClient s slot hslot
          { s.client slot with
            tunnel := ((s.client slot).tunnel.handlePopped p.1 p.2).1
            pushes := pushes ((s.client slot).tunnel.handlePopped p.1 p.2).2 }
        have hnext : (EventMachine.next machine s (.listen slot)).client =
            (s.setClient slot { s.client slot with
              tunnel := ((s.client slot).tunnel.handlePopped p.1 p.2).1
              pushes := pushes ((s.client slot).tunnel.handlePopped p.1 p.2).2 }).client := by
          simp only [EventMachine.next, machine, listen, hloop, if_true, hpopped, hrun]
          rfl
        rw [sum_standing_congr hnext]
        simp only [standing, hnone, pushWeights_nil] at hclient ⊢
        omega
      · have hclient := @sum_standing_setClient s slot hslot
          { s.client slot with listening := false }
        have hnext : (EventMachine.next machine s (.listen slot)).client =
            (s.setClient slot { s.client slot with listening := false }).client := by
          simp only [EventMachine.next, machine, listen, hloop, if_true, hpopped, hrun]
          rfl
        have hpos := weight_pos p
        rw [sum_standing_congr hnext]
        simp only [standing] at hclient ⊢
        omega
  | _ => cases he

/-! ## Runs -/

theorem confined_initial : initial.Confined where
  working := working_initial
  sources := by
    intro idx p hp
    have hqueued : initial.queued idx = [] := holds_zeroMailbox.queued_eq
    rw [hqueued] at hp
    cases hp

/-- Whatever has happened in the segment, from then on the clients make at most
`potential` pushes and pops while no gateway forwards and no client comes or goes. -/
theorem length_le_of_possible (past es : List ShmSegmentEvent)
    (hpast : ∀ e ∈ past, actor e < maxClients)
    (hes : Along machine Possible (run machine initial past) es) :
    es.length ≤ potential (run machine initial past) := by
  have hconfined : (run machine initial past).Confined := by
    apply run_invariant_along machine (I := Confined) (P := fun _ e ↦ actor e < maxClients)
    · exact fun _ e h he ↦ Confined.next h he
    · exact confined_initial
    · exact along_of_forall_mem machine (fun _ e he ↦ hpast e he) initial
  apply length_le_potential machine (I := Confined) (P := Possible) (Φ := potential)
  · exact fun _ e h he ↦ Confined.next h (actor_lt_of_possible he)
  · exact fun _ e h he ↦ potential_next_lt h he
  · exact hconfined
  · exact hes

/-- The second client says hello, is answered, and answers in turn. -/
def greeting : List ShmSegmentEvent :=
  [.push 1, .listen 0, .push 0, .listen 1, .push 1, .listen 0]

theorem length_greeting :
    greeting.length ≤
      potential (run machine initial [.construct 0 1, .construct 1 2]) :=
  length_le_of_possible [.construct 0 1, .construct 1 2] greeting (by decide)
    (by decide +kernel)

end ShmSegment

end LinkExtender
