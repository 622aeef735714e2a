import Mathlib.Logic.Basic
import Mathlib.Tactic.Basic
import Mathlib.Tactic.ByContra

/-!
# Lookup tables

The behaviour of an ordered associative container that its clients can see: a
key is bound to at most one value.  Lookup after each update is given by one
simp lemma, so no client unfolds an update.
-/

@[ext] structure PartialMap (κ ν : Type*) where
  find : κ → Option ν

namespace PartialMap

variable {κ ν : Type*}

def empty : PartialMap κ ν := ⟨fun _ ↦ none⟩

@[simp] theorem find_empty (k : κ) : (empty : PartialMap κ ν).find k = none := rfl

/-- Keep the bindings whose value fails `p`. -/
def eraseValues (m : PartialMap κ ν) (p : ν → Bool) : PartialMap κ ν :=
  ⟨fun k ↦ (m.find k).filter (fun v ↦ !p v)⟩

@[simp] theorem find_eraseValues (m : PartialMap κ ν) (p : ν → Bool) (k : κ) :
    (m.eraseValues p).find k = (m.find k).filter (fun v ↦ !p v) := rfl

theorem find_eraseValues_eq_some (m : PartialMap κ ν) (p : ν → Bool) (k : κ)
    (v : ν) :
    (m.eraseValues p).find k = some v ↔ m.find k = some v ∧ p v = false := by
  simp [Option.filter_eq_some_iff]

@[simp] theorem eraseValues_false (m : PartialMap κ ν) :
    m.eraseValues (fun _ ↦ false) = m := by
  ext k : 2
  cases h : m.find k <;> simp [h]

variable [DecidableEq κ]

def insert (m : PartialMap κ ν) (k : κ) (v : ν) : PartialMap κ ν :=
  ⟨fun k' ↦ if k' = k then some v else m.find k'⟩

/-- Bind `k` to `v` unless `k` is bound already. -/
def emplace (m : PartialMap κ ν) (k : κ) (v : ν) : PartialMap κ ν :=
  if (m.find k).isSome then m else m.insert k v

def erase (m : PartialMap κ ν) (k : κ) : PartialMap κ ν :=
  ⟨fun k' ↦ if k' = k then none else m.find k'⟩

theorem find_insert (m : PartialMap κ ν) (k k' : κ) (v : ν) :
    (m.insert k v).find k' = if k' = k then some v else m.find k' := rfl

@[simp] theorem find_insert_self (m : PartialMap κ ν) (k : κ) (v : ν) :
    (m.insert k v).find k = some v := by
  simp [find_insert]

theorem find_insert_of_ne (m : PartialMap κ ν) {k k' : κ} (h : k' ≠ k) (v : ν) :
    (m.insert k v).find k' = m.find k' := by
  simp [find_insert, h]

theorem find_emplace (m : PartialMap κ ν) (k k' : κ) (v : ν) :
    (m.emplace k v).find k' =
      if k' = k ∧ m.find k = none then some v else m.find k' := by
  unfold emplace
  cases h : m.find k with
  | none => simp [find_insert]
  | some w => simp

theorem find_erase (m : PartialMap κ ν) (k k' : κ) :
    (m.erase k).find k' = if k' = k then none else m.find k' := rfl

@[simp] theorem find_erase_self (m : PartialMap κ ν) (k : κ) :
    (m.erase k).find k = none := by
  simp [find_erase]

theorem find_erase_of_ne (m : PartialMap κ ν) {k k' : κ} (h : k' ≠ k) :
    (m.erase k).find k' = m.find k' := by
  simp [find_erase, h]

theorem find_erase_eq_some (m : PartialMap κ ν) (k k' : κ) (v : ν) :
    (m.erase k).find k' = some v ↔ k' ≠ k ∧ m.find k' = some v := by
  by_cases h : k' = k <;> simp [find_erase, h]

theorem find_foldl_erase (m : PartialMap κ ν) (ks : List κ) (k : κ) :
    (ks.foldl erase m).find k = if k ∈ ks then none else m.find k := by
  induction ks generalizing m with
  | nil => simp
  | cons k' ks ih =>
      rw [List.foldl_cons, ih, find_erase]
      by_cases hks : k ∈ ks <;> by_cases hk : k = k' <;> simp [hks, hk]

/-! ## Inverse tables -/

section Inverse

variable [DecidableEq ν] {m : PartialMap κ ν} {w : PartialMap ν κ} {k : κ} {v : ν}

def Inverse (m : PartialMap κ ν) (w : PartialMap ν κ) : Prop :=
  ∀ k v, m.find k = some v ↔ w.find v = some k

/-- The two are bound to each other, or not at all. -/
def Paired (m : PartialMap κ ν) (w : PartialMap ν κ) (k : κ) (v : ν) : Prop :=
  m.find k = some v ∨ m.find k = none ∧ w.find v = none

omit [DecidableEq κ] [DecidableEq ν] in
theorem inverse_empty : Inverse (empty : PartialMap κ ν) empty := by
  intro k v
  simp

omit [DecidableEq κ] [DecidableEq ν] in
theorem Inverse.eq_of_find (h : Inverse m w) {v' : ν} (hv : w.find v = some k)
    (hv' : w.find v' = some k) : v = v' :=
  Option.some.inj (((h k v).mpr hv).symm.trans ((h k v').mpr hv'))

omit [DecidableEq κ] [DecidableEq ν] in
/-- What is not paired is bound elsewhere on one of the sides. -/
theorem Inverse.exists_of_not_paired (h : Inverse m w) (hnot : ¬ Paired m w k v) :
    (∃ v' ≠ v, w.find v' = some k) ∨ ∃ k' ≠ k, m.find k' = some v := by
  obtain ⟨hother, hbound⟩ := not_or.mp hnot
  cases hk : m.find k with
  | some v' =>
      refine Or.inl ⟨v', ?_, (h k v').mp hk⟩
      rintro rfl
      exact hother hk
  | none =>
      obtain ⟨k', hk'⟩ := Option.ne_none_iff_exists'.mp (fun hv ↦ hbound ⟨hk, hv⟩)
      refine Or.inr ⟨k', ?_, (h k' v).mpr hk'⟩
      rintro rfl
      exact hother ((h k' v).mpr hk')

/-- Binding two to each other keeps the tables inverse if they were paired before. -/
theorem Inverse.insert_iff (h : Inverse m w) :
    Inverse (m.insert k v) (w.insert v k) ↔ Paired m w k v := by
  constructor
  · intro h'
    by_contra hnot
    rcases h.exists_of_not_paired hnot with ⟨v', hne, hv'⟩ | ⟨k', hne, hk'⟩
    · have hback := (h' k v').mpr ((find_insert_of_ne w hne k).trans hv')
      rw [find_insert_self] at hback
      exact hne (Option.some.inj hback).symm
    · have hback := (h' k' v).mp ((find_insert_of_ne m hne v).trans hk')
      rw [find_insert_self] at hback
      exact hne (Option.some.inj hback).symm
  · intro hpaired k' v'
    by_cases hk : k' = k <;> by_cases hv : v' = v
    · simp [hk, hv]
    · subst hk
      rw [find_insert_self, find_insert_of_ne w hv]
      refine iff_of_false (fun heq ↦ hv (Option.some.inj heq).symm) (fun hv' ↦ ?_)
      rcases hpaired with hbound | ⟨hfree, -⟩
      · exact hv (h.eq_of_find hv' ((h k' v).mp hbound))
      · rw [(h k' v').mpr hv'] at hfree
        cases hfree
    · subst hv
      rw [find_insert_self, find_insert_of_ne m hk]
      refine iff_of_false (fun hk' ↦ ?_) (fun heq ↦ hk (Option.some.inj heq).symm)
      rw [h k' v'] at hk'
      rcases hpaired with hbound | ⟨-, hfree⟩
      · exact hk (Option.some.inj (hk'.symm.trans ((h k v').mp hbound)))
      · rw [hk'] at hfree
        cases hfree
    · rw [find_insert_of_ne m hk, find_insert_of_ne w hv]
      exact h k' v'

/-- And so does releasing them. -/
theorem Inverse.erase_iff (h : Inverse m w) :
    Inverse (m.erase k) (w.erase v) ↔ Paired m w k v := by
  constructor
  · intro h'
    by_contra hnot
    rcases h.exists_of_not_paired hnot with ⟨v', hne, hv'⟩ | ⟨k', hne, hk'⟩
    · have hback := (h' k v').mpr ((find_erase_of_ne w hne).trans hv')
      simp at hback
    · have hback := (h' k' v).mp ((find_erase_of_ne m hne).trans hk')
      simp at hback
  · intro hpaired k' v'
    rw [find_erase_eq_some, find_erase_eq_some, h k' v']
    refine and_congr_left fun hv' ↦ not_congr ?_
    -- of two that are bound to each other, either one gives the other
    rcases hpaired with hbound | ⟨hk, hv⟩
    · have hv := (h k v).mp hbound
      constructor
      · rintro rfl
        exact h.eq_of_find hv' hv
      · rintro rfl
        exact Option.some.inj (hv'.symm.trans hv)
    · refine iff_of_false ?_ ?_
      · rintro rfl
        rw [(h k' v').mpr hv'] at hk
        cases hk
      · rintro rfl
        rw [hv'] at hv
        cases hv

end Inverse

end PartialMap
