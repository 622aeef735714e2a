import Mathlib.Data.List.Basic

/-!
# Histories of events

Statements about a finite sequence of events in which an event is judged
together with the events before it.
-/

namespace History

variable {ε : Type*}

/-- Some event met `P`, and every event after it has met `Q`. -/
def Since (P Q : List ε → ε → Prop) (past : List ε) : Prop :=
  ∃ before e after, past = before ++ e :: after ∧ P before e ∧
    ∀ mid e' rest, after = mid ++ e' :: rest → Q (before ++ e :: mid) e'

@[simp] theorem not_since_nil (P Q : List ε → ε → Prop) : ¬ Since P Q [] := by
  rintro ⟨before, e, after, h, -⟩
  simp at h

theorem since_concat {P Q : List ε → ε → Prop} {past : List ε} {e : ε} :
    Since P Q (past ++ [e]) ↔ P past e ∨ (Since P Q past ∧ Q past e) := by
  constructor
  · rintro ⟨before, e₀, after, heq, hP, hQ⟩
    rcases List.eq_nil_or_concat after with rfl | ⟨init, last, rfl⟩
    · obtain ⟨rfl, hlast⟩ := List.append_inj' heq rfl
      obtain rfl : e = e₀ := by simpa using hlast
      exact Or.inl hP
    · rw [List.concat_eq_append, ← List.cons_append, ← List.append_assoc] at heq
      obtain ⟨rfl, hlast⟩ := List.append_inj' heq rfl
      obtain rfl : e = last := by simpa using hlast
      refine Or.inr ⟨⟨before, e₀, init, rfl, hP, ?_⟩, ?_⟩
      · intro mid e' rest hinit
        apply hQ mid e' (rest ++ [e])
        simp [hinit]
      · apply hQ init e []
        simp
  · rintro (hP | ⟨⟨before, e₀, after, rfl, hP, hQ⟩, hlast⟩)
    · exact ⟨past, e, [], rfl, hP, by simp⟩
    · refine ⟨before, e₀, after ++ [e], by simp, hP, ?_⟩
      intro mid e' rest heq
      rcases List.eq_nil_or_concat rest with rfl | ⟨init, last, rfl⟩
      · obtain ⟨rfl, he⟩ := List.append_inj' heq rfl
        obtain rfl : e = e' := by simpa using he
        exact hlast
      · rw [List.concat_eq_append, ← List.cons_append, ← List.append_assoc] at heq
        obtain ⟨hafter, -⟩ := List.append_inj' heq rfl
        exact hQ mid e' init hafter

/-! ## Splitting a sequence at one of its events -/

theorem split_iff_getElem {es past rest : List ε} {e : ε} :
    es = past ++ e :: rest ↔ ∃ i, ∃ h : i < es.length, past = es.take i ∧ e = es[i] ∧
      rest = es.drop (i + 1) := by
  constructor
  · rintro rfl
    exact ⟨past.length, by simp, by simp, by simp, by simp⟩
  · rintro ⟨i, h, rfl, rfl, rfl⟩
    rw [← List.drop_eq_getElem_cons h, List.take_append_drop]

instance decidableForallSplit (es : List ε) (P : List ε → ε → List ε → Prop)
    [∀ past e rest, Decidable (P past e rest)] :
    Decidable (∀ past e rest, es = past ++ e :: rest → P past e rest) :=
  decidable_of_iff (∀ i : Fin es.length, P (es.take i) es[i] (es.drop (i + 1))) <| by
    constructor
    · intro h past e rest heq
      obtain ⟨i, hi, rfl, rfl, rfl⟩ := split_iff_getElem.mp heq
      exact h ⟨i, hi⟩
    · intro h i
      exact h _ _ _ (split_iff_getElem.mpr ⟨i, i.isLt, rfl, rfl, rfl⟩)

instance decidableExistsSplit (es : List ε) (P : List ε → ε → List ε → Prop)
    [∀ past e rest, Decidable (P past e rest)] :
    Decidable (∃ past e rest, es = past ++ e :: rest ∧ P past e rest) :=
  decidable_of_iff (∃ i : Fin es.length, P (es.take i) es[i] (es.drop (i + 1))) <| by
    constructor
    · rintro ⟨i, h⟩
      exact ⟨_, _, _, split_iff_getElem.mpr ⟨i, i.isLt, rfl, rfl, rfl⟩, h⟩
    · rintro ⟨past, e, rest, heq, h⟩
      obtain ⟨i, hi, rfl, rfl, rfl⟩ := split_iff_getElem.mp heq
      exact ⟨⟨i, hi⟩, h⟩

end History
