import Mathlib.Data.List.Basic

/-!
# Lists with separators

A list that is made of pieces with a separator between them determines the pieces,
where the separator occurs in none of them.
-/

namespace Separators

variable {α : Type*} {c : α}

theorem append_cons_inj {xs ys us vs : List α} (hxs : c ∉ xs) (hys : c ∉ ys)
    (h : xs ++ c :: us = ys ++ c :: vs) : xs = ys ∧ us = vs := by
  induction xs generalizing ys with
  | nil =>
      cases ys with
      | nil => simpa using h
      | cons y ys =>
          rw [List.nil_append, List.cons_append] at h
          obtain ⟨rfl, -⟩ := List.cons.inj h
          exact absurd List.mem_cons_self hys
  | cons x xs ih =>
      cases ys with
      | nil =>
          rw [List.nil_append, List.cons_append] at h
          obtain ⟨rfl, -⟩ := List.cons.inj h
          exact absurd List.mem_cons_self hxs
      | cons y ys =>
          rw [List.cons_append, List.cons_append] at h
          obtain ⟨rfl, htail⟩ := List.cons.inj h
          obtain ⟨rfl, rfl⟩ := ih (fun hx ↦ hxs (List.mem_cons_of_mem _ hx))
            (fun hy ↦ hys (List.mem_cons_of_mem _ hy)) htail
          exact ⟨rfl, rfl⟩

/-- The same at the last separator. -/
theorem append_cons_inj_last {xs ys us vs : List α} (hus : c ∉ us) (hvs : c ∉ vs)
    (h : xs ++ c :: us = ys ++ c :: vs) : xs = ys ∧ us = vs := by
  have hreverse := congrArg List.reverse h
  simp only [List.reverse_append, List.reverse_cons, List.append_assoc,
    List.singleton_append] at hreverse
  obtain ⟨htail, hfront⟩ := append_cons_inj (by simpa using hus) (by simpa using hvs) hreverse
  exact ⟨List.reverse_injective hfront, List.reverse_injective htail⟩

/-! ## Splitting at a separator -/

section Split

variable [DecidableEq α] {l xs ys : List α}

/-- The list in front of the first `c` and behind it. -/
def splitFirst (c : α) : List α → Option (List α × List α)
  | [] => none
  | x :: xs =>
      if x = c then some ([], xs)
      else (splitFirst c xs).map (fun p ↦ (x :: p.1, p.2))

/-- The list in front of the last `c` and behind it. -/
def splitLast (c : α) (l : List α) : Option (List α × List α) :=
  (splitFirst c l.reverse).map (fun p ↦ (p.2.reverse, p.1.reverse))

theorem splitFirst_append_cons (hxs : c ∉ xs) (ys : List α) :
    splitFirst c (xs ++ c :: ys) = some (xs, ys) := by
  induction xs with
  | nil => simp [splitFirst]
  | cons x xs ih =>
      have hx : x ≠ c := fun hx ↦ hxs (hx ▸ List.mem_cons_self)
      simp [splitFirst, hx, ih (fun hmem ↦ hxs (List.mem_cons_of_mem _ hmem))]

theorem splitFirst_eq_some :
    splitFirst c l = some (xs, ys) ↔ l = xs ++ c :: ys ∧ c ∉ xs := by
  constructor
  · intro h
    induction l generalizing xs with
    | nil => cases h
    | cons x l ih =>
        by_cases hx : x = c
        · simp only [splitFirst, hx, if_true] at h
          cases h
          simp [hx]
        · simp only [splitFirst, hx, if_false] at h
          obtain ⟨⟨zs, ws⟩, hsplit, heq⟩ := Option.map_eq_some_iff.mp h
          cases heq
          obtain ⟨rfl, hzs⟩ := ih hsplit
          simp [Ne.symm hx, hzs]
  · rintro ⟨rfl, hxs⟩
    exact splitFirst_append_cons hxs ys

theorem splitLast_eq_some :
    splitLast c l = some (xs, ys) ↔ l = xs ++ c :: ys ∧ c ∉ ys := by
  rw [splitLast, Option.map_eq_some_iff]
  constructor
  · rintro ⟨⟨zs, ws⟩, hsplit, heq⟩
    cases heq
    obtain ⟨hreverse, hzs⟩ := splitFirst_eq_some.mp hsplit
    refine ⟨List.reverse_injective ?_, by simpa using hzs⟩
    simp [hreverse]
  · rintro ⟨rfl, hys⟩
    refine ⟨(ys.reverse, xs.reverse), ?_, by simp⟩
    rw [splitFirst_eq_some]
    exact ⟨by simp, by simpa using hys⟩

end Split

/-! ## Joining with a separator -/

theorem intercalate_inj {xss yss : List (List α)} (hlen : xss.length = yss.length)
    (hxss : ∀ xs ∈ xss, c ∉ xs) (hyss : ∀ ys ∈ yss, c ∉ ys)
    (h : [c].intercalate xss = [c].intercalate yss) : xss = yss := by
  induction xss generalizing yss with
  | nil => exact (List.length_eq_zero_iff.mp hlen.symm).symm
  | cons xs xss ih =>
      cases yss with
      | nil => simp at hlen
      | cons ys yss =>
          have hrest : xss.length = yss.length := by simpa using hlen
          cases xss with
          | nil =>
              obtain rfl : yss = [] := List.length_eq_zero_iff.mp hrest.symm
              simpa using h
          | cons xs' xss =>
              cases yss with
              | nil => simp at hrest
              | cons ys' yss =>
                  simp only [List.intercalate_cons_cons, List.append_assoc,
                    List.singleton_append] at h
                  obtain ⟨rfl, htail⟩ := append_cons_inj (hxss xs List.mem_cons_self)
                    (hyss ys List.mem_cons_self) h
                  rw [ih hrest (fun zs hzs ↦ hxss zs (List.mem_cons_of_mem _ hzs))
                    (fun zs hzs ↦ hyss zs (List.mem_cons_of_mem _ hzs)) htail]

theorem mem_intercalate {x : α} {xss : List (List α)} (h : x ∈ [c].intercalate xss) :
    x = c ∨ ∃ xs ∈ xss, x ∈ xs := by
  induction xss with
  | nil => simp at h
  | cons xs xss ih =>
      cases xss with
      | nil =>
          right
          exact ⟨xs, List.mem_cons_self, by simpa using h⟩
      | cons xs' xss =>
          simp only [List.intercalate_cons_cons, List.append_assoc, List.singleton_append,
            List.mem_append, List.mem_cons] at h
          rcases h with hx | hx | hx
          · exact Or.inr ⟨xs, List.mem_cons_self, hx⟩
          · exact Or.inl hx
          · rcases ih hx with heq | ⟨ys, hys, hmem⟩
            · exact Or.inl heq
            · exact Or.inr ⟨ys, List.mem_cons_of_mem _ hys, hmem⟩

end Separators
