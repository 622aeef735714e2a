import LinkExtender.Library.Machine
import LinkExtender.Library.Trace
import Mathlib.Data.Nat.ModEq

/-!
# Bounded queues and ring buffers

A queue of bounded capacity that drops what is pushed into it while it is full, and
its representation in an array: the elements stand in consecutive slots from a front
index on, around the end of the array, and one slot stays free so that the two indices
tell a full array from an empty one.
-/

namespace BoundedQueue

open EventMachine

variable {β σ ω : Type*}

inductive Event (β : Type*) where
  | push (b : β)
  | pop
  | clear
deriving DecidableEq

/-- The queue itself, oldest element first.  A pop shows what it returns. -/
def machine (capacity : ℕ) : Machine (List β) (Event β) (Option β)
  | queue, .push b => (if queue.length < capacity then queue ++ [b] else queue, [])
  | [], .pop => ([], [none])
  | b :: queue, .pop => (queue, [some b])
  | _, .clear => ([], [])

/-- The element that an event puts into a queue with room or without. -/
def taken (room : Bool) : Event β → Option β
  | .push b => if room then some b else none
  | _ => none

/-- The pushes of a run that were made into a queue with room. -/
def accepted (m : Machine σ (Event β) ω) (room : σ → Bool) (s : σ) (es : List (Event β)) :
    List β :=
  (trace m s es).filterMap (fun p ↦ taken (room p.1) p.2)

/-- What the pops of a run have returned. -/
def popped (m : Machine σ (Event β) (Option β)) (s : σ) (es : List (Event β)) : List β :=
  (outputs m s es).filterMap id

/-- What goes in comes out, in the same order. -/
theorem popped_append_run (capacity : ℕ) (queue : List β) {es : List (Event β)}
    (hes : .clear ∉ es) :
    popped (machine capacity) queue es ++ run (machine capacity) queue es =
      queue ++ accepted (machine capacity) (fun queue ↦ queue.length < capacity) queue es := by
  induction es generalizing queue with
  | nil => simp [popped, accepted, trace]
  | cons e es ih =>
      obtain ⟨he, hes⟩ := not_or.mp (mt List.mem_cons.mpr hes)
      have hrest := @ih (next (machine capacity) queue e) hes
      rw [popped, accepted] at hrest ⊢
      rw [outputs_cons, trace, List.filterMap_append, List.filterMap_cons, run_cons,
        List.append_assoc, hrest]
      cases e with
      | clear => exact absurd rfl he
      | push b =>
          simp only [next, emit, machine, taken, decide_eq_true_eq, List.filterMap_nil,
            List.nil_append]
          split <;> simp
      | pop => cases queue <;> simp [next, emit, machine, taken]

end BoundedQueue

namespace RingBuffer

variable {β : Type*} {size front back : ℕ} {slot slot' : ℕ → Option β} {queue : List β} {b : β}

/-- The queue stands in the slots from `front` up to `back`. -/
structure Represents (size : ℕ) (slot : ℕ → Option β) (front back : ℕ) (queue : List β) :
    Prop where
  front_lt : front < size
  length_lt : queue.length < size
  back_eq : back = (front + queue.length) % size
  holds : ∀ i b, queue[i]? = some b → slot ((front + i) % size) = some b

theorem Represents.back_lt (h : Represents size slot front back queue) : back < size := by
  rw [h.back_eq]
  exact Nat.mod_lt _ (Nat.zero_lt_of_lt h.front_lt)

/-- Slots at different distances from the front are different. -/
theorem add_mod_inj {i j : ℕ} (hi : i < size) (hj : j < size)
    (heq : (front + i) % size = (front + j) % size) : i = j := by
  have hmod : i % size = j % size := Nat.ModEq.add_left_cancel' front heq
  rwa [Nat.mod_eq_of_lt hi, Nat.mod_eq_of_lt hj] at hmod

theorem represents_nil (hfront : front < size) : Represents size slot front front [] where
  front_lt := hfront
  length_lt := Nat.zero_lt_of_lt hfront
  back_eq := by rw [List.length_nil, Nat.add_zero, Nat.mod_eq_of_lt hfront]
  holds := by simp

/-- Reading the slots one after the other gives the queue back. -/
theorem Represents.filterMap_range (h : Represents size slot front back queue) :
    (List.range queue.length).filterMap (fun i ↦ slot ((front + i) % size)) = queue := by
  have hslots : (List.range queue.length).filterMap (fun i ↦ slot ((front + i) % size)) =
      (List.range queue.length).filterMap (fun i ↦ queue[i]?) := by
    apply List.filterMap_congr
    intro i hi
    have hget := List.getElem?_eq_getElem (List.mem_range.mp hi)
    rw [hget, h.holds i _ hget]
  rw [hslots]
  clear hslots h
  induction queue with
  | nil => rfl
  | cons b queue ih =>
      rw [List.length_cons, List.range_succ_eq_map, List.filterMap_cons, List.filterMap_map]
      simpa [Function.comp_def] using ih

theorem Represents.empty_iff (h : Represents size slot front back queue) :
    front = back ↔ queue = [] := by
  constructor
  · intro heq
    have hmod : (front + 0) % size = (front + queue.length) % size := by
      rw [← h.back_eq, Nat.add_zero, Nat.mod_eq_of_lt h.front_lt, heq]
    exact List.length_eq_zero_iff.mp
      (add_mod_inj (Nat.zero_lt_of_lt h.front_lt) h.length_lt hmod).symm
  · rintro rfl
    rw [h.back_eq, List.length_nil, Nat.add_zero, Nat.mod_eq_of_lt h.front_lt]

theorem Represents.back_succ (h : Represents size slot front back queue) :
    (back + 1) % size = (front + (queue.length + 1)) % size := by
  rw [h.back_eq, Nat.mod_add_mod, Nat.add_assoc]

/-- The next slot is the front exactly when only one slot is free. -/
theorem Represents.full_iff (h : Represents size slot front back queue) :
    (back + 1) % size = front ↔ ¬ queue.length < size - 1 := by
  have hlength := h.length_lt
  rw [h.back_succ]
  constructor
  · intro heq hroom
    have hmod : (front + (queue.length + 1)) % size = (front + 0) % size := by
      rw [heq, Nat.add_zero, Nat.mod_eq_of_lt h.front_lt]
    have hzero := add_mod_inj (by omega) (by omega) hmod
    omega
  · intro hfull
    rw [show queue.length + 1 = size by omega, Nat.add_mod_right, Nat.mod_eq_of_lt h.front_lt]

theorem Represents.push (h : Represents size slot front back queue)
    (hroom : queue.length < size - 1) (hback : slot' back = some b)
    (hother : ∀ i, i ≠ back → slot' i = slot i) :
    Represents size slot' front ((back + 1) % size) (queue ++ [b]) where
  front_lt := h.front_lt
  length_lt := by
    rw [List.length_append, List.length_singleton]
    omega
  back_eq := by rw [h.back_succ, List.length_append, List.length_singleton]
  holds := by
    intro i b' hget
    rcases lt_or_ge i queue.length with hold | hnew
    · rw [List.getElem?_append_left hold] at hget
      rw [hother, h.holds i b' hget]
      rw [h.back_eq]
      exact fun heq ↦ hold.ne (add_mod_inj (hold.trans h.length_lt) h.length_lt heq)
    · rw [List.getElem?_append_right hnew, List.getElem?_singleton] at hget
      obtain ⟨hzero, hb⟩ := Option.ite_none_right_eq_some.mp hget
      rw [show i = queue.length by omega, ← h.back_eq, hback, hb]

theorem Represents.pop (h : Represents size slot front back (b :: queue)) :
    slot front = some b ∧ Represents size slot ((front + 1) % size) back queue := by
  have hfront := h.front_lt
  have hlength := h.length_lt
  rw [List.length_cons] at hlength
  constructor
  · have hget := h.holds 0 b rfl
    rwa [Nat.add_zero, Nat.mod_eq_of_lt hfront] at hget
  constructor
  · exact Nat.mod_lt _ (Nat.zero_lt_of_lt hfront)
  · omega
  · rw [h.back_eq, List.length_cons, Nat.mod_add_mod, Nat.add_assoc, Nat.add_comm 1]
  · intro i b' hget
    rw [Nat.mod_add_mod, Nat.add_assoc, Nat.add_comm 1]
    exact h.holds (i + 1) b' (by rwa [List.getElem?_cons_succ])

end RingBuffer
