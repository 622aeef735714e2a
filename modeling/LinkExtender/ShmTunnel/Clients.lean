import LinkExtender.ShmTunnel
import Mathlib.Data.List.Nodup

/-!
# The clients of the shared segment

Constructor and destructor of `ShmTunnel` are all that touches `num_clients`: it
is the next slot, the number of clients and the limit.  The state below is that of
a host: the segments that were ever opened under `SHM_NAME`, the one that the name
opens now, and the live clients with the segment each of them has mapped.
-/

namespace LinkExtender

/-- The shared segment, without the mailboxes. -/
structure SharedMemory where
  numClients : ℕ
deriving DecidableEq

namespace ShmTunnel

/-- `say_in_tunnel` without a client that is meant. -/
def sayInTunnelToAll (t : ShmTunnel) (numClients : ℕ) (type : TunnelMessageType)
    (msg : String) : List ShmOutput :=
  ((List.range numClients).filter (fun clientIdx ↦ t.mClientId ≠ clientIdx)).flatMap
    (t.sayInTunnel type msg)

/-- The constructor.  When it throws, `num_clients` has already been counted up. -/
def construct (shared : SharedMemory) :
    SharedMemory × Except String (ShmTunnel × List ShmOutput) :=
  let t := create shared.numClients
  if t.mClientId = 0 then (⟨1⟩, .ok (t, []))
  else
    let numClients := (shared.numClients + 1) % 2 ^ 64
    if numClients ≥ maxClients then
      (⟨numClients⟩, .error "Maximum number of clients reached")
    else (⟨numClients⟩, .ok (t, t.sayInTunnelToAll numClients .tunnelHello "Hello"))

/-- The destructor.  The last client by count removes the segment. -/
def destruct (shared : SharedMemory) : Option SharedMemory :=
  if shared.numClients > 1 then some ⟨shared.numClients - 1⟩ else none

end ShmTunnel

structure ShmClient where
  mSharedMemory : ℕ
  tunnel : ShmTunnel

structure ShmHost where
  segments : ℕ → SharedMemory
  name : ℕ
  clients : List ShmClient

inductive ShmHostEvent where
  | construct
  | destruct (position : ℕ)
deriving DecidableEq

inductive ShmHostOutput where
  | client (output : ShmOutput)
  | thrown (what : String)
deriving DecidableEq

namespace ShmHost

open EventMachine

/-- No client is live, and a segment that is opened for the first time is zero. -/
def initial : ShmHost where
  segments := fun _ ↦ ⟨0⟩
  name := 0
  clients := []

def shared (h : ShmHost) : SharedMemory := h.segments h.name

def construct (h : ShmHost) : ShmHost × List ShmHostOutput :=
  match ShmTunnel.construct h.shared with
  | (shared, .ok (tunnel, out)) =>
      ({ h with
          segments := Function.update h.segments h.name shared
          clients := h.clients ++ [⟨h.name, tunnel⟩] }, out.map .client)
  | (shared, .error what) =>
      ({ h with segments := Function.update h.segments h.name shared }, [.thrown what])

def destruct (h : ShmHost) (position : ℕ) : ShmHost :=
  match h.clients[position]? with
  | none => h
  | some client =>
      match ShmTunnel.destruct (h.segments client.mSharedMemory) with
      | some shared =>
          { h with
            segments := Function.update h.segments client.mSharedMemory shared
            clients := h.clients.eraseIdx position }
      | none =>
          -- the name opens a new segment from now on
          { h with name := h.name + 1, clients := h.clients.eraseIdx position }

def machine : Machine ShmHost ShmHostEvent ShmHostOutput
  | h, .construct => h.construct
  | h, .destruct position => (h.destruct position, [])

/-- The live clients own different slots, and `num_clients` is their number. -/
structure Slotted (h : ShmHost) : Prop where
  distinct : (h.clients.map (fun client ↦ client.tunnel.mClientId)).Nodup
  below : ∀ client ∈ h.clients, client.tunnel.mClientId < maxClients
  count : h.shared.numClients = h.clients.length

def Throws (h : ShmHost) : Prop := ∃ what, .thrown what ∈ h.construct.2

/-- A construction works up to the limit, and leaves no trace where it throws. -/
def Admits (h : ShmHost) : ShmHostEvent → Prop
  | .construct =>
      (h.clients.length < maxClients → ¬ h.Throws) ∧
        (h.Throws → h.construct.1.shared.numClients = h.shared.numClients)
  | .destruct _ => True

structure KeepsSlots (h : ShmHost) (es : List ShmHostEvent) : Prop where
  slotted : Throughout machine Slotted h es
  admits : Along machine Admits h es

/-- A construction finds `num_clients` two below the limit at most, and it is
nobody's slot. -/
def SlotFree (h : ShmHost) : ShmHostEvent → Prop
  | .construct =>
      h.shared.numClients + 1 < maxClients ∧
        ∀ client ∈ h.clients, client.tunnel.mClientId ≠ h.shared.numClients
  | .destruct _ => True

/-! ## One construction -/

/-- The counter after a construction, whether it throws or not. -/
def counted (h : ShmHost) : ℕ := (h.shared.numClients + 1) % 2 ^ 64

theorem construct_of_lt {h : ShmHost} (hroom : h.counted < maxClients) :
    ∃ out : List ShmOutput, h.construct =
      ({ h with
          segments := Function.update h.segments h.name ⟨h.counted⟩
          clients := h.clients ++ [⟨h.name, ShmTunnel.create h.shared.numClients⟩] },
        out.map .client) := by
  unfold counted at hroom
  unfold construct ShmTunnel.construct counted
  by_cases hfirst : h.shared.numClients = 0
  · simp only [ShmTunnel.create, hfirst, if_true]
    exact ⟨[], rfl⟩
  · simp only [ShmTunnel.create, hfirst, if_false, ge_iff_le, not_le.mpr hroom]
    exact ⟨_, rfl⟩

theorem construct_of_le {h : ShmHost} (hfull : maxClients ≤ h.counted) :
    h.construct =
      ({ h with segments := Function.update h.segments h.name ⟨h.counted⟩ },
        [.thrown "Maximum number of clients reached"]) := by
  unfold counted at hfull
  unfold construct ShmTunnel.construct counted
  have hfirst : h.shared.numClients ≠ 0 := by
    intro hzero
    rw [hzero] at hfull
    revert hfull
    decide
  simp only [ShmTunnel.create, hfirst, if_false, ge_iff_le, hfull, if_true]

theorem throws_iff (h : ShmHost) : h.Throws ↔ maxClients ≤ h.counted := by
  constructor
  · rintro ⟨what, hthrown⟩
    by_contra hroom
    obtain ⟨out, heq⟩ := construct_of_lt (not_le.mp hroom)
    rw [heq] at hthrown
    obtain ⟨_, _, heq⟩ := List.mem_map.mp hthrown
    cases heq
  · intro hfull
    refine ⟨"Maximum number of clients reached", ?_⟩
    rw [construct_of_le hfull]
    exact List.mem_singleton_self _

theorem shared_construct (h : ShmHost) : h.construct.1.shared.numClients = h.counted := by
  rcases lt_or_ge h.counted maxClients with hroom | hfull
  · obtain ⟨out, heq⟩ := construct_of_lt hroom
    rw [heq]
    simp [shared]
  · rw [construct_of_le hfull]
    simp [shared]

theorem counted_eq {h : ShmHost} (hroom : h.shared.numClients < maxClients) :
    h.counted = h.shared.numClients + 1 := by
  simp only [counted, maxClients] at hroom ⊢
  omega

theorem counted_ne (h : ShmHost) : h.counted ≠ h.shared.numClients := by
  simp only [counted]
  omega

/-! ## Runs -/

/-- Besides the slots: all live clients share the segment that the name opens, and
the later ones have never been written. -/
structure Orderly (h : ShmHost) : Prop extends Slotted h where
  mapped : ∀ client ∈ h.clients, client.mSharedMemory = h.name
  fresh : ∀ segment, h.name < segment → h.segments segment = ⟨0⟩

theorem orderly_initial : initial.Orderly where
  distinct := List.nodup_nil
  below := by simp [initial]
  count := rfl
  mapped := by simp [initial]
  fresh := fun _ _ ↦ rfl

theorem Orderly.construct {h : ShmHost} (hh : h.Orderly) (hfree : h.SlotFree .construct) :
    h.construct.1.Orderly := by
  obtain ⟨hroom, hfree⟩ := hfree
  have hcounted : h.counted = h.shared.numClients + 1 := counted_eq (by omega)
  obtain ⟨out, heq⟩ := construct_of_lt (h := h) (by omega)
  rw [heq]
  constructor
  · constructor
    · rw [List.map_append, List.nodup_append]
      refine ⟨hh.distinct, List.nodup_singleton _, ?_⟩
      intro mClientId hmem mClientId' hmem'
      obtain ⟨client, hclient, rfl⟩ := List.mem_map.mp hmem
      obtain rfl := List.mem_singleton.mp hmem'
      exact hfree client hclient
    · intro client hclient
      rcases List.mem_append.mp hclient with hclient | hclient
      · exact hh.below client hclient
      · obtain rfl := List.mem_singleton.mp hclient
        exact Nat.lt_of_succ_lt hroom
    · have hcount := hh.count
      simp only [shared] at hcount hcounted
      simp [shared, hcounted, hcount]
  · intro client hclient
    rcases List.mem_append.mp hclient with hclient | hclient
    · exact hh.mapped client hclient
    · obtain rfl := List.mem_singleton.mp hclient
      rfl
  · intro segment hlater
    have hne : segment ≠ h.name := hlater.ne'
    simpa only [Function.update_of_ne hne] using hh.fresh segment hlater

/-- A host whose clients are some of the former ones is orderly if it counts right. -/
theorem Orderly.of_sublist {h h' : ShmHost} (hh : h.Orderly)
    (hclients : h'.clients.Sublist h.clients)
    (hcount : h'.shared.numClients = h'.clients.length)
    (hmapped : ∀ client ∈ h'.clients, client.mSharedMemory = h'.name)
    (hfresh : ∀ segment, h'.name < segment → h'.segments segment = ⟨0⟩) : h'.Orderly where
  distinct := hh.distinct.sublist (hclients.map _)
  below := fun client hclient ↦ hh.below client (hclients.subset hclient)
  count := hcount
  mapped := hmapped
  fresh := hfresh

theorem Orderly.destruct {h : ShmHost} (hh : h.Orderly) (position : ℕ) :
    (h.destruct position).Orderly := by
  unfold ShmHost.destruct ShmTunnel.destruct
  cases hclient : h.clients[position]? with
  | none => exact hh
  | some client =>
      have hsublist := List.eraseIdx_sublist h.clients position
      have hposition : position < h.clients.length :=
        (List.getElem?_eq_some_iff.mp hclient).1
      have hlength := List.length_eraseIdx_of_lt hposition
      have hcount := hh.count
      simp only [shared] at hcount
      simp only [hh.mapped client (List.mem_of_getElem? hclient), hcount]
      by_cases hmore : h.clients.length > 1
      · simp only [hmore, if_true]
        apply hh.of_sublist hsublist
        · simp [shared, hlength]
        · exact fun other hother ↦ hh.mapped other (hsublist.subset hother)
        · intro segment hlater
          have hne : segment ≠ h.name := hlater.ne'
          simpa only [Function.update_of_ne hne] using hh.fresh segment hlater
      · simp only [hmore, if_false]
        have hempty : h.clients.eraseIdx position = [] := by
          rw [← List.length_eq_zero_iff, hlength]
          omega
        apply hh.of_sublist hsublist
        · simp [shared, hempty, hh.fresh (h.name + 1) (Nat.lt_succ_self _)]
        · simp [hempty]
        · exact fun segment hlater ↦ hh.fresh segment (Nat.lt_of_succ_lt hlater)

theorem slotFree_of_slotted {h : ShmHost} (hh : h.Orderly) {e : ShmHostEvent}
    (hafter : (next machine h e).Slotted) : h.SlotFree e := by
  cases e with
  | destruct _ => trivial
  | construct =>
      have hcount := hafter.count
      simp only [next, machine] at hafter hcount
      rw [shared_construct] at hcount
      rcases lt_or_ge h.counted maxClients with hroom | hfull
      · obtain ⟨out, heq⟩ := construct_of_lt hroom
        rw [heq] at hafter hcount
        have hbelow : h.shared.numClients < maxClients :=
          hafter.below _ (List.mem_append_right _ (List.mem_singleton_self _))
        refine ⟨by rwa [counted_eq hbelow] at hroom, ?_⟩
        have hdistinct := hafter.distinct
        rw [List.map_append, List.nodup_append] at hdistinct
        intro client hclient
        exact hdistinct.2.2 _ (List.mem_map_of_mem hclient) _ (List.mem_singleton_self _)
      · -- nothing joins, yet the counter has moved
        rw [construct_of_le hfull, ← hh.count] at hcount
        exact absurd hcount h.counted_ne

theorem admits_of_slotFree {h : ShmHost} {e : ShmHostEvent} (hfree : h.SlotFree e) :
    h.Admits e := by
  cases e with
  | destruct _ => trivial
  | construct =>
      have hroom : h.counted < maxClients := by
        rw [counted_eq (Nat.lt_of_succ_lt hfree.1)]
        exact hfree.1
      have hthrows : ¬ h.Throws := by
        rw [throws_iff]
        exact not_le.mpr hroom
      exact ⟨fun _ ↦ hthrows, fun h ↦ absurd h hthrows⟩

/-- The slots are in order all along a run exactly when each of its constructions
found a free slot under the limit. -/
theorem keepsSlots_iff (es : List ShmHostEvent) :
    initial.KeepsSlots es ↔ Along machine SlotFree initial es := by
  have hkeep : ∀ h e, Orderly h → SlotFree h e → Orderly (next machine h e) := by
    intro h e hh he
    cases e with
    | construct => exact hh.construct he
    | destruct position => exact hh.destruct position
  have hiff := throughout_iff_along machine (fun h (hh : Orderly h) ↦ hh.toSlotted) hkeep
    (fun h e hh hafter ↦ slotFree_of_slotted hh hafter) orderly_initial es
  constructor
  · intro hkeeps
    exact hiff.mp hkeeps.slotted
  · intro halong
    exact ⟨hiff.mpr halong, along_of_invariant machine hkeep
      (fun _ _ _ hfree ↦ admits_of_slotFree hfree) orderly_initial halong⟩

/-- The older of two clients leaves and another one joins: both are now client 1.
And of five clients the last one is turned away. -/
theorem not_keepsSlots :
    ¬ initial.KeepsSlots [.construct, .construct, .destruct 0, .construct] ∧
      ¬ initial.KeepsSlots [.construct, .construct, .construct, .construct, .construct] := by
  constructor
  · intro hkeeps
    have hdistinct := hkeeps.slotted.last.distinct
    revert hdistinct
    decide
  · intro hkeeps
    have hcount := hkeeps.slotted.last.count
    revert hcount
    decide

end ShmHost

end LinkExtender
