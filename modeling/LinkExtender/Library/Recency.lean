import Mathlib.Data.Finset.Card
import Mathlib.Data.List.Nodup
import Mathlib.Data.List.Perm.Basic

/-!
# Least recently used

The keys of a sequence of requests in the order of their last use, the latest
first.  A store that keeps its keys in this order and drops the last one when it is
full holds a front part of that list, so that what it remembers can be told by
counting the other keys that were requested in between.
-/

namespace Recency

variable {κ : Type*} [DecidableEq κ]

def touch (l : List κ) (k : κ) : List κ := k :: l.erase k

/-- The keys that were requested, the latest first. -/
def order (requests : List κ) : List κ := requests.foldl touch []

@[simp] theorem order_nil : order ([] : List κ) = [] := rfl

@[simp] theorem order_concat (requests : List κ) (k : κ) :
    order (requests ++ [k]) = touch (order requests) k := by
  simp [order]

theorem nodup_touch {l : List κ} (hl : l.Nodup) (k : κ) : (touch l k).Nodup :=
  List.nodup_cons.mpr ⟨hl.not_mem_erase, hl.erase k⟩

theorem mem_touch {l : List κ} {k k' : κ} : k' ∈ touch l k ↔ k' = k ∨ k' ∈ l := by
  unfold touch
  rw [List.mem_cons]
  by_cases hk : k' = k
  · simp [hk]
  · rw [List.mem_erase_of_ne hk]

theorem nodup_order (requests : List κ) : (order requests).Nodup := by
  induction requests using List.reverseRecOn with
  | nil => exact List.nodup_nil
  | append_singleton requests k ih =>
      rw [order_concat]
      exact nodup_touch ih k

@[simp] theorem mem_order {requests : List κ} {k : κ} : k ∈ order requests ↔ k ∈ requests := by
  induction requests using List.reverseRecOn with
  | nil => simp
  | append_singleton requests k' ih =>
      rw [order_concat, mem_touch, ih, List.mem_append, List.mem_singleton, or_comm]

/-- The later requests come first; of the earlier ones only keys remain that have not
been requested again. -/
theorem order_append (before after : List κ) :
    order (before ++ after) =
      order after ++ (order before).filter (fun k ↦ k ∉ after) := by
  induction after using List.reverseRecOn with
  | nil => simp
  | append_singleton after k ih =>
      have hfilter : (order before).filter (fun k' ↦ k' ∉ after ++ [k]) =
          ((order before).filter (fun k' ↦ k' ∉ after)).erase k := by
        rw [((nodup_order before).filter _).erase_eq_filter, List.filter_filter]
        apply List.filter_congr
        intro k' _
        by_cases hk : k' = k <;> by_cases hmem : k' ∈ after <;> simp [hk, hmem]
      rw [← List.append_assoc, order_concat, order_concat, ih, hfilter]
      unfold touch
      rw [List.cons_append]
      by_cases hmem : k ∈ order after
      · have hnot : k ∉ (order before).filter (fun k' ↦ k' ∉ after) := by
          simp [mem_order.mp hmem]
        rw [List.erase_append_left _ hmem, List.erase_of_not_mem hnot]
      · rw [List.erase_append_right _ hmem, List.erase_of_not_mem hmem]

theorem length_order (requests : List κ) :
    (order requests).length = requests.toFinset.card := by
  rw [← List.toFinset_card_of_nodup (nodup_order requests)]
  congr 1
  ext k
  simp

/-- Behind the keys requested since comes the key itself. -/
theorem order_split {before after : List κ} {k : κ} (hlast : k ∉ after) :
    ∃ older, order (before ++ k :: after) = order after ++ k :: older := by
  refine ⟨((order before).erase k).filter (fun k' ↦ k' ∉ after), ?_⟩
  have hsplit : before ++ k :: after = (before ++ [k]) ++ after := by simp
  rw [hsplit, order_append, order_concat, touch, List.filter_cons_of_pos (by simpa using hlast)]

omit [DecidableEq κ] in
theorem exists_last {requests : List κ} {k : κ} (h : k ∈ requests) :
    ∃ before after, requests = before ++ k :: after ∧ k ∉ after := by
  obtain ⟨after, before, heq, hlast⟩ := List.eq_append_cons_of_mem (List.mem_reverse.mpr h)
  refine ⟨before.reverse, after.reverse, ?_, by simpa using hlast⟩
  rw [← List.reverse_reverse requests, heq]
  simp

/-- A key is among the first `c` exactly when fewer than `c` other keys have been
requested since it was requested last. -/
theorem mem_take_order {requests : List κ} {k : κ} {c : ℕ} :
    k ∈ (order requests).take c ↔
      ∃ before after, requests = before ++ k :: after ∧ k ∉ after ∧
        after.toFinset.card < c := by
  have hplace {before after : List κ} (hlast : k ∉ after) :
      k ∈ (order (before ++ k :: after)).take c ↔ after.toFinset.card < c := by
    obtain ⟨older, heq⟩ := @order_split _ _ before after k hlast
    rw [heq, ← length_order, List.take_append, List.mem_append]
    rcases Nat.lt_or_ge (order after).length c with hlt | hle
    · have hpos : c - (order after).length = (c - (order after).length - 1) + 1 := by omega
      rw [hpos, List.take_succ_cons]
      simp [hlt]
    · have hnot : k ∉ (order after).take c := fun hmem ↦
        hlast (mem_order.mp (List.mem_of_mem_take hmem))
      simp [Nat.sub_eq_zero_of_le hle, hnot, hle]
  constructor
  · intro hmem
    obtain ⟨before, after, rfl, hlast⟩ := exists_last (mem_order.mp (List.mem_of_mem_take hmem))
    exact ⟨before, after, rfl, hlast, (hplace hlast).mp hmem⟩
  · rintro ⟨before, after, rfl, hlast, hfew⟩
    exact (hplace hlast).mpr hfew

/-! ## A bounded store -/

/-- A request to a store that keeps at most `c` keys. -/
def touchWithin (c : ℕ) (l : List κ) (k : κ) : List κ :=
  if k ∈ l then k :: l.erase k else k :: if c ≤ l.length then l.dropLast else l

theorem erase_take_of_mem {l : List κ} {k : κ} {n : ℕ} (h : k ∈ l.take (n + 1)) :
    (l.take (n + 1)).erase k = (l.erase k).take n := by
  induction l generalizing n with
  | nil => simp at h
  | cons k' l ih =>
      by_cases hk : k' = k
      · subst hk
        simp
      · rw [List.take_succ_cons, List.mem_cons] at h
        have htail : k ∈ l.take n := h.resolve_left (Ne.symm hk)
        cases n with
        | zero => simp at htail
        | succ n =>
            rw [List.take_succ_cons, List.erase_cons_tail (by simpa using hk),
              List.erase_cons_tail (by simpa using hk), List.take_succ_cons, ih htail]

theorem take_erase_of_notMem {l : List κ} {k : κ} {n : ℕ} (h : k ∉ l.take n) :
    (l.erase k).take n = l.take n := by
  induction l generalizing n with
  | nil => simp
  | cons k' l ih =>
      cases n with
      | zero => simp
      | succ n =>
          rw [List.take_succ_cons, List.mem_cons, not_or] at h
          rw [List.erase_cons_tail (by simpa using Ne.symm h.1), List.take_succ_cons,
            List.take_succ_cons, ih h.2]

/-- A store that has held the first `c` keys goes on to hold the first `c`. -/
theorem touchWithin_take {c : ℕ} (hc : 1 ≤ c) (l : List κ) (k : κ) :
    touchWithin c (l.take c) k = (touch l k).take c := by
  obtain ⟨n, rfl⟩ := Nat.exists_eq_add_of_le' hc
  unfold touchWithin touch
  rw [List.take_succ_cons]
  by_cases hmem : k ∈ l.take (n + 1)
  · rw [if_pos hmem, erase_take_of_mem hmem]
  · rw [if_neg hmem]
    have hfront : k ∉ l.take n := fun h ↦ hmem (List.take_subset_take_left l n.le_succ h)
    rw [take_erase_of_notMem hfront, List.length_take]
    congr 1
    by_cases hfull : n + 1 ≤ l.length
    · rw [if_pos (by omega), List.dropLast_eq_take, List.length_take, List.take_take]
      congr 1
      omega
    · rw [if_neg (by omega), List.take_of_length_le (by omega), List.take_of_length_le (by omega)]

end Recency
