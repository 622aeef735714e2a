import Mathlib.Data.List.Basic
import Mathlib.Data.List.Nodup

/-!
# The last position of a value in a list

An index that is rebuilt by writing each value's position in order remembers
the last one.  Positions are kept up under appending and under closing a gap.
-/

namespace LastIndex

variable {α : Type*} [DecidableEq α]

def lastIdxOf (a : α) : List α → Option ℕ
  | [] => none
  | b :: bs =>
      match lastIdxOf a bs with
      | some i => some (i + 1)
      | none => if b = a then some 0 else none

@[simp] theorem lastIdxOf_nil (a : α) : lastIdxOf a [] = none := rfl

@[simp] theorem lastIdxOf_eq_none {a : α} {l : List α} :
    lastIdxOf a l = none ↔ a ∉ l := by
  induction l with
  | nil => simp
  | cons b bs ih =>
      rw [lastIdxOf]
      cases h : lastIdxOf a bs with
      | none =>
          have hmem : a ∉ bs := ih.mp h
          simp [hmem, eq_comm]
      | some i =>
          have hmem : a ∈ bs := by
            by_contra hnot
            simp [ih.mpr hnot] at h
          simp [hmem]

theorem lastIdxOf_eq_some {a : α} {l : List α} {i : ℕ} :
    lastIdxOf a l = some i ↔ l[i]? = some a ∧ ∀ j, i < j → l[j]? ≠ some a := by
  induction l generalizing i with
  | nil => simp
  | cons b bs ih =>
      rw [lastIdxOf]
      cases h : lastIdxOf a bs with
      | none =>
          have hmem : ∀ j, bs[j]? ≠ some a := fun j hj ↦
            lastIdxOf_eq_none.mp h (List.mem_of_getElem? hj)
          cases i with
          | zero =>
              have hlater : ∀ j, 0 < j → (b :: bs)[j]? ≠ some a := by
                intro j hj
                obtain ⟨k, rfl⟩ := Nat.exists_eq_add_one.mpr hj
                simpa using hmem k
              by_cases hb : b = a <;> simp [hb]
              simpa [hb] using hlater
          | succ i =>
              by_cases hb : b = a <;> simp [hb, hmem i]
      | some k =>
          cases i with
          | zero =>
              have hk := (ih.mp h).1
              constructor
              · simp
              · rintro ⟨-, hlater⟩
                exact absurd (by simpa using hk) (hlater (k + 1) (Nat.succ_pos k))
          | succ i =>
              have hi := ih (i := i)
              rw [h] at hi
              simp only [Option.some.injEq, Nat.add_right_cancel_iff] at hi ⊢
              rw [hi, List.getElem?_cons_succ]
              apply and_congr_right
              intro _
              constructor
              · intro hlater j hj
                obtain ⟨k, rfl⟩ := Nat.exists_eq_add_one.mpr (Nat.zero_lt_of_lt hj)
                simpa using hlater k (by omega)
              · intro hlater j hj
                simpa using hlater (j + 1) (by omega)

theorem lastIdxOf_concat (a b : α) (l : List α) :
    lastIdxOf a (l ++ [b]) = if a = b then some l.length else lastIdxOf a l := by
  induction l with
  | nil => by_cases h : a = b <;> simp [lastIdxOf, h, eq_comm]
  | cons c cs ih =>
      rw [List.cons_append, lastIdxOf, ih]
      by_cases h : a = b
      · simp [h]
      · simp [h, lastIdxOf]

/-- Without repetitions the last position is the only one. -/
theorem lastIdxOf_of_nodup {a : α} {l : List α} (hl : l.Nodup) {i : ℕ} :
    lastIdxOf a l = some i ↔ l[i]? = some a := by
  rw [lastIdxOf_eq_some]
  refine ⟨fun h ↦ h.1, fun h ↦ ⟨h, ?_⟩⟩
  intro j hij hj
  obtain ⟨hi, hi'⟩ := List.getElem?_eq_some_iff.mp h
  obtain ⟨hj, hj'⟩ := List.getElem?_eq_some_iff.mp hj
  have heq : i = j := (hl.getElem_inj_iff).mp (hi'.trans hj'.symm)
  omega

theorem notMem_eraseIdx_of_nodup {a : α} {l : List α} (hl : l.Nodup) {i : ℕ}
    (h : l[i]? = some a) : a ∉ l.eraseIdx i := by
  obtain ⟨hi, rfl⟩ := List.getElem?_eq_some_iff.mp h
  rw [← hl.erase_getElem i hi]
  exact hl.not_mem_erase

/-- Closing the gap at the last position of another value moves a position
down by one exactly when it lay behind the gap. -/
theorem lastIdxOf_eraseIdx_of_ne {a b : α} {l : List α} {i k : ℕ} (hne : a ≠ b)
    (hb : l[k]? = some b) (ha : lastIdxOf a l = some i) :
    lastIdxOf a (l.eraseIdx k) = some (if k < i then i - 1 else i) := by
  obtain ⟨hget, hlater⟩ := lastIdxOf_eq_some.mp ha
  have hik : i ≠ k := by
    rintro rfl
    apply hne
    exact Option.some.inj (hget.symm.trans hb)
  rw [lastIdxOf_eq_some]
  constructor
  · rw [List.getElem?_eraseIdx]
    by_cases h : k < i
    · rw [if_pos h, if_neg (by omega), Nat.sub_add_cancel (by omega)]
      exact hget
    · rw [if_neg h, if_pos (by omega)]
      exact hget
  · intro j hj
    rw [List.getElem?_eraseIdx]
    split
    · exact hlater j (by split at hj <;> omega)
    · exact hlater (j + 1) (by split at hj <;> omega)

end LastIndex
