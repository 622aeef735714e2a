import LinkExtender.Library.Machine
import Mathlib.Algebra.Order.BigOperators.Group.Finset
import Mathlib.Data.List.Forall2
import Mathlib.Data.List.Infix
import Mathlib.Data.List.Perm.Subperm

/-!
# Messages in transit

A machine whose steps send messages, keep some of them in transit and deliver some.
A law of one step that relates the lists of the three carries over to runs, whatever
the relation is, as long as lists can be put in front of it and behind it: with
sublists it is the law of a queue that may lose messages, with sub-permutations that
of a network that also reorders them, with equality that of a channel that does
neither.
-/

namespace EventMachine

variable {σ ε ω α : Type*}

/-- What the steps of a run yield, one after the other. -/
def gathered (m : Machine σ ε ω) (f : σ → ε → List α) : σ → List ε → List α
  | _, [] => []
  | s, e :: es => f s e ++ gathered m f (next m s e) es

@[simp] theorem gathered_nil (m : Machine σ ε ω) (f : σ → ε → List α) (s : σ) :
    gathered m f s [] = [] := rfl

@[simp] theorem gathered_cons (m : Machine σ ε ω) (f : σ → ε → List α) (s : σ) (e : ε)
    (es : List ε) : gathered m f s (e :: es) = f s e ++ gathered m f (next m s e) es := rfl

theorem gathered_append (m : Machine σ ε ω) (f : σ → ε → List α) (s : σ) (xs ys : List ε) :
    gathered m f s (xs ++ ys) = gathered m f s xs ++ gathered m f (run m s xs) ys := by
  induction xs generalizing s with
  | nil => rfl
  | cons e xs ih => rw [List.cons_append, gathered_cons, gathered_cons, ih, run_cons,
      List.append_assoc]

theorem gathered_concat (m : Machine σ ε ω) (f : σ → ε → List α) (s : σ) (es : List ε) (e : ε) :
    gathered m f s (es ++ [e]) = gathered m f s es ++ f (run m s es) e := by
  rw [gathered_append, gathered_cons, gathered_nil, List.append_nil]

theorem gathered_eq_nil (m : Machine σ ε ω) {f : σ → ε → List α} {es : List ε}
    (h : ∀ s, ∀ e ∈ es, f s e = []) (s : σ) : gathered m f s es = [] := by
  induction es generalizing s with
  | nil => rfl
  | cons e es ih =>
      rw [gathered_cons, h s e List.mem_cons_self, List.nil_append]
      exact ih (fun s e he ↦ h s e (List.mem_cons_of_mem _ he)) _

/-- What is gathered comes from one of the steps. -/
theorem mem_gathered {m : Machine σ ε ω} {f : σ → ε → List α} {s : σ} {es : List ε} {a : α} :
    a ∈ gathered m f s es ↔
      ∃ before e after, es = before ++ e :: after ∧ a ∈ f (run m s before) e := by
  induction es generalizing s with
  | nil => simp
  | cons e es ih =>
      rw [gathered_cons, List.mem_append, ih]
      constructor
      · rintro (hmem | ⟨before, e', after, rfl, hmem⟩)
        · exact ⟨[], e, es, rfl, hmem⟩
        · exact ⟨e :: before, e', after, rfl, hmem⟩
      · rintro ⟨before, e', after, heq, hmem⟩
        cases before with
        | nil =>
            obtain ⟨rfl, rfl⟩ := List.cons.inj heq
            exact Or.inl hmem
        | cons e'' before =>
            obtain ⟨rfl, rfl⟩ := List.cons.inj heq
            exact Or.inr ⟨before, e', after, rfl, hmem⟩

section Translation

variable {σ' ε' ω' : Type*} {m : Machine σ ε ω} {a : Machine σ' ε' ω'} {view : σ → σ'}
  {translate : σ → ε → List ε'}

/-- Where every step is the run of another machine over some events, so is every run. -/
theorem run_translation
    (hstep : ∀ s e, view (next m s e) = run a (view s) (translate s e)) (s : σ) (es : List ε) :
    view (run m s es) = run a (view s) (gathered m translate s es) := by
  induction es generalizing s with
  | nil => rfl
  | cons e es ih => rw [run_cons, ih, hstep, gathered_cons, run_append]

theorem gathered_translation {f : σ → ε → List α} {f' : σ' → ε' → List α}
    (hstep : ∀ s e, view (next m s e) = run a (view s) (translate s e))
    (hf : ∀ s e, f s e = gathered a f' (view s) (translate s e)) (s : σ) (es : List ε) :
    gathered m f s es = gathered a f' (view s) (gathered m translate s es) := by
  induction es generalizing s with
  | nil => rfl
  | cons e es ih =>
      rw [gathered_cons, ih, hf, hstep, gathered_cons, gathered_append]

theorem along_translation {P : σ → ε → Prop} {P' : σ' → ε' → Prop}
    (hstep : ∀ s e, view (next m s e) = run a (view s) (translate s e))
    (hP : ∀ s e, P s e → Along a P' (view s) (translate s e)) {s : σ} {es : List ε}
    (h : Along m P s es) : Along a P' (view s) (gathered m translate s es) := by
  induction es generalizing s with
  | nil => trivial
  | cons e es ih =>
      rw [gathered_cons, along_append, ← hstep]
      exact ⟨hP s e h.1, ih h.2⟩

end Translation

theorem filter_gathered (m : Machine σ ε ω) (f : σ → ε → List α) (p : α → Bool) (s : σ)
    (es : List ε) :
    (gathered m f s es).filter p = gathered m (fun s e ↦ (f s e).filter p) s es := by
  induction es generalizing s with
  | nil => rfl
  | cons e es ih => rw [gathered_cons, List.filter_append, ih, gathered_cons]

/-- Where each step yields matches of what it yields on another side, so does the run. -/
theorem sublistForall₂_gathered {β : Type*} {R : α → β → Prop} (m : Machine σ ε ω)
    {f : σ → ε → List α} {g : σ → ε → List β} {I : σ → Prop} {P : σ → ε → Prop}
    (hnext : ∀ s e, I s → P s e → I (next m s e))
    (hmatch : ∀ s e, I s → P s e → List.SublistForall₂ R (f s e) (g s e)) {s : σ} (hs : I s)
    {es : List ε} (hes : Along m P s es) :
    List.SublistForall₂ R (gathered m f s es) (gathered m g s es) := by
  induction es generalizing s with
  | nil => exact .nil
  | cons e es ih =>
      obtain ⟨front, hfront, hsub⟩ := List.sublistForall₂_iff.mp (hmatch s e hs hes.1)
      obtain ⟨back, hback, hsub'⟩ :=
        List.sublistForall₂_iff.mp (ih (hnext s e hs hes.1) hes.2)
      rw [gathered_cons, gathered_cons, List.sublistForall₂_iff]
      exact ⟨front ++ back, List.rel_append hfront hback, hsub.append hsub'⟩

theorem length_gathered (m : Machine σ ε ω) (f : σ → ε → List α) (s : σ) (es : List ε) :
    (gathered m f s es).length = tally m (fun s e ↦ (f s e).length) s es := by
  induction es generalizing s with
  | nil => rfl
  | cons e es ih => rw [gathered_cons, List.length_append, ih, tally]

theorem tally_sum {κ : Type*} (m : Machine σ ε ω) (K : Finset κ) (w : κ → σ → ε → ℕ) (s : σ)
    (es : List ε) :
    tally m (fun s e ↦ ∑ k ∈ K, w k s e) s es = ∑ k ∈ K, tally m (w k) s es := by
  induction es generalizing s with
  | nil => simp [tally]
  | cons e es ih => simp only [tally, ih, Finset.sum_add_distrib]

theorem tally_countP (m : Machine σ ε ω) (p : ε → Bool) (s : σ) (es : List ε) :
    tally m (fun _ e ↦ if p e then 1 else 0) s es = es.countP p := by
  induction es generalizing s with
  | nil => rfl
  | cons e es ih => rw [tally, ih, List.countP_cons, Nat.add_comm]

/-- A bound on what each step counts for bounds the run. -/
theorem tally_le_tally (m : Machine σ ε ω) {w w' : σ → ε → ℕ} {I : σ → Prop} {P : σ → ε → Prop}
    (hnext : ∀ s e, I s → P s e → I (next m s e))
    (hle : ∀ s e, I s → P s e → w s e ≤ w' s e) {s : σ} (hs : I s) {es : List ε}
    (hes : Along m P s es) : tally m w s es ≤ tally m w' s es := by
  induction es generalizing s with
  | nil => exact Nat.le_refl _
  | cons e es ih => exact Nat.add_le_add (hle s e hs hes.1) (ih (hnext s e hs hes.1) hes.2)

/-- Of what is sent to each of a list of recipients, one recipient gets at most one copy. -/
theorem filterMap_ite_of_nodup [DecidableEq α] {β : Type*} {l : List α} (hl : l.Nodup) (a : α)
    (b : Option β) :
    l.filterMap (fun x ↦ if x = a then b else none) = if a ∈ l then b.toList else [] := by
  induction l with
  | nil => simp
  | cons x l ih =>
      obtain ⟨hnot, hrest⟩ := List.nodup_cons.mp hl
      rw [List.filterMap_cons]
      by_cases hx : x = a
      · subst hx
        rw [ih hrest, if_neg hnot]
        cases b <;> simp
      · simp [ih hrest, hx, Ne.symm hx]

/-- Lists may be put in front of the two sides of `R`, and behind them. -/
structure Congruent (R : List α → List α → Prop) : Prop where
  refl : ∀ xs, R xs xs
  trans : ∀ {xs ys zs}, R xs ys → R ys zs → R xs zs
  append_left : ∀ {xs ys} zs, R xs ys → R (zs ++ xs) (zs ++ ys)
  append_right : ∀ {xs ys} zs, R xs ys → R (xs ++ zs) (ys ++ zs)

theorem congruent_eq : Congruent (fun xs ys : List α ↦ xs = ys) where
  refl _ := rfl
  trans := Eq.trans
  append_left zs h := congrArg (zs ++ ·) h
  append_right zs h := congrArg (· ++ zs) h

theorem congruent_sublist : Congruent (@List.Sublist α) where
  refl := List.Sublist.refl
  trans := List.Sublist.trans
  append_left zs h := h.append_left zs
  append_right zs h := h.append_right zs

theorem congruent_subperm : Congruent (@List.Subperm α) where
  refl := List.Subperm.refl
  trans := List.Subperm.trans
  append_left zs h := (List.subperm_append_left zs).mpr h
  append_right zs h := (List.subperm_append_right zs).mpr h

theorem congruent_perm : Congruent (@List.Perm α) where
  refl := List.Perm.refl
  trans := List.Perm.trans
  append_left zs h := h.append_left zs
  append_right zs h := h.append_right zs

/-- The relation of a network that may also repeat what is in transit. -/
theorem congruent_subset : Congruent (fun xs ys : List α ↦ xs ⊆ ys) where
  refl := List.Subset.refl
  trans := List.Subset.trans
  append_left zs h := List.append_subset.mpr
    ⟨List.subset_append_left _ _, List.Subset.trans h (List.subset_append_right zs _)⟩
  append_right zs h := List.append_subset.mpr
    ⟨List.Subset.trans h (List.subset_append_left _ zs), List.subset_append_right _ _⟩

/-- Let each step of a run deliver, and leave in transit, what was in transit before
and what it sends itself.  Then so does the run. -/
theorem Congruent.conserved {R : List α → List α → Prop} (hR : Congruent R)
    (m : Machine σ ε ω) (sent delivered : σ → ε → List α) (transit : σ → List α)
    {I : σ → Prop} {P : σ → ε → Prop} (hkeep : ∀ s e, I s → P s e → I (next m s e))
    (hstep : ∀ s e, I s → P s e →
      R (delivered s e ++ transit (next m s e)) (transit s ++ sent s e))
    {s : σ} (hs : I s) {es : List ε} (hes : Along m P s es) :
    R (gathered m delivered s es ++ transit (run m s es))
      (transit s ++ gathered m sent s es) := by
  induction es generalizing s with
  | nil => simpa using hR.refl (transit s)
  | cons e es ih =>
      have htail := hR.append_left (delivered s e) (ih (hkeep s e hs hes.1) hes.2)
      have hhead := hR.append_right (gathered m sent (next m s e) es) (hstep s e hs hes.1)
      simp only [gathered_cons, run_cons, List.append_assoc] at htail hhead ⊢
      exact hR.trans htail hhead

/-- Two channels in a row are one: what the first hands over is what the second is sent. -/
theorem Congruent.comp {R : List α → List α → Prop} (hR : Congruent R)
    {delivered handed sent first first' second second' : List α}
    (hfirst : R (handed ++ first') (first ++ sent))
    (hsecond : R (delivered ++ second') (second ++ handed)) :
    R (delivered ++ (second' ++ first')) (second ++ first ++ sent) := by
  have hback := hR.append_right first' hsecond
  have hfront := hR.append_left second hfirst
  rw [List.append_assoc, List.append_assoc] at hback
  rw [← List.append_assoc second first sent] at hfront
  exact hR.trans hback hfront

/-- A run that starts with nothing in transit delivers no more than it sends, in the
order of sending. -/
theorem gathered_sublist (m : Machine σ ε ω) (sent delivered : σ → ε → List α)
    (transit : σ → List α) {I : σ → Prop} {P : σ → ε → Prop}
    (hkeep : ∀ s e, I s → P s e → I (next m s e))
    (hstep : ∀ s e, I s → P s e →
      (delivered s e ++ transit (next m s e)).Sublist (transit s ++ sent s e))
    {s : σ} (hs : I s) (hnone : transit s = []) {es : List ε} (hes : Along m P s es) :
    (gathered m delivered s es).Sublist (gathered m sent s es) := by
  have h := congruent_sublist.conserved m sent delivered transit hkeep hstep hs hes
  rw [hnone, List.nil_append] at h
  exact (List.sublist_append_left _ _).trans h

end EventMachine
