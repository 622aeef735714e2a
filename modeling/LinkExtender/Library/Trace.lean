import LinkExtender.Library.History
import LinkExtender.Library.Machine

/-!
# Traces of runs

The steps of a run, each with the state that it starts from.  What a step may rely
on is stated of the steps before it, so that assumptions on the surroundings and
conclusions about the machine have one form.
-/

namespace History

variable {ε : Type*} {P Q : List ε → ε → Prop} {es : List ε} {e : ε}

/-- Every event meets `P` together with the events before it. -/
def Each (P : List ε → ε → Prop) (es : List ε) : Prop :=
  ∀ past e rest, es = past ++ e :: rest → P past e

instance [∀ past e, Decidable (P past e)] : Decidable (Each P es) :=
  inferInstanceAs (Decidable (∀ past e rest, es = past ++ e :: rest → P past e))

theorem each_nil (P : List ε → ε → Prop) : Each P [] := by
  intro past e rest h
  simp at h

theorem each_concat : Each P (es ++ [e]) ↔ Each P es ∧ P es e := by
  constructor
  · intro h
    refine ⟨?_, h es e [] rfl⟩
    rintro past e' rest rfl
    apply h past e' (rest ++ [e])
    simp
  · rintro ⟨h, hlast⟩ past e' rest heq
    rcases List.eq_nil_or_concat rest with rfl | ⟨init, last, rfl⟩
    · obtain ⟨rfl, he⟩ := List.append_inj' heq rfl
      obtain rfl : e = e' := by simpa using he
      exact hlast
    · rw [List.concat_eq_append, ← List.cons_append, ← List.append_assoc] at heq
      obtain ⟨rfl, -⟩ := List.append_inj' heq rfl
      exact h past e' init rfl

theorem Each.exists_split (h : Each P es) (he : e ∈ es) :
    ∃ past rest, es = past ++ e :: rest ∧ P past e := by
  obtain ⟨past, rest, rfl⟩ := List.append_of_mem he
  exact ⟨past, rest, rfl, h past e rest rfl⟩

theorem Each.exists_past (h : Each P es) (he : e ∈ es) :
    ∃ past, past ⊆ es ∧ P past e := by
  obtain ⟨past, rest, rfl, hP⟩ := h.exists_split he
  exact ⟨past, List.subset_append_left past (e :: rest), hP⟩

/-- Of two events, one is judged with the other in its past. -/
theorem Each.comparable (h : Each P es) {e' : ε} (he : e ∈ es) (he' : e' ∈ es) :
    e = e' ∨ (∃ past, e ∈ past ∧ P past e') ∨ ∃ past, e' ∈ past ∧ P past e := by
  obtain ⟨past, rest, rfl, hP⟩ := h.exists_split he
  rcases List.mem_append.mp he' with hbefore | hafter
  · exact Or.inr (Or.inr ⟨past, hbefore, hP⟩)
  · rcases List.mem_cons.mp hafter with rfl | hafter
    · exact Or.inl rfl
    · obtain ⟨mid, rest', rfl⟩ := List.append_of_mem hafter
      refine Or.inr (Or.inl ⟨past ++ e :: mid, by simp, ?_⟩)
      apply h (past ++ e :: mid) e' rest'
      simp

end History

namespace EventMachine

open History

variable {σ ε ω : Type*}

def trace (m : Machine σ ε ω) : σ → List ε → List (σ × ε)
  | _, [] => []
  | s, e :: es => (s, e) :: trace m (next m s e) es

theorem trace_concat (m : Machine σ ε ω) (s : σ) (es : List ε) (e : ε) :
    trace m s (es ++ [e]) = trace m s es ++ [(run m s es, e)] := by
  induction es generalizing s with
  | nil => rfl
  | cons e' es ih => simp [trace, ih]

theorem filterMap_trace_simulation {σ' ω' α : Type*} {m : Machine σ ε ω}
    {m' : Machine σ' ε ω'} {R : σ → σ' → Prop} {f : σ × ε → Option α} {f' : σ' × ε → Option α}
    (hstep : ∀ s s' e, R s s' → R (next m s e) (next m' s' e))
    (hf : ∀ s s' e, R s s' → f (s, e) = f' (s', e)) {s : σ} {s' : σ'} (h : R s s')
    (es : List ε) : (trace m s es).filterMap f = (trace m' s' es).filterMap f' := by
  induction es generalizing s s' with
  | nil => rfl
  | cons e es ih =>
      rw [trace, trace, List.filterMap_cons, List.filterMap_cons, hf s s' e h,
        ih (hstep s s' e h)]

/-- Let `I` speak of the steps so far and the state that they lead to.  Where a step
that meets `C` keeps `I` and meets `P`, a run whose steps all meet `C` also meets `P`
at each of them. -/
theorem each_of_invariant (m : Machine σ ε ω) {I : List (σ × ε) → σ → Prop}
    {C P : List (σ × ε) → σ × ε → Prop} {s : σ} (hinit : I [] s)
    (hstep : ∀ past t e, I past t → C past (t, e) → I (past ++ [(t, e)]) (next m t e))
    (himp : ∀ past t e, I past t → C past (t, e) → P past (t, e)) (es : List ε)
    (h : Each C (trace m s es)) : Each P (trace m s es) := by
  have hboth : Each C (trace m s es) →
      Each P (trace m s es) ∧ I (trace m s es) (run m s es) := by
    apply history_induction m s
      (I := fun es t ↦ Each C (trace m s es) → Each P (trace m s es) ∧ I (trace m s es) t)
    · intro _
      exact ⟨each_nil P, hinit⟩
    · intro past e ih hC
      rw [trace_concat, each_concat] at hC
      obtain ⟨hP, hI⟩ := ih hC.1
      rw [trace_concat, each_concat]
      exact ⟨⟨hP, himp _ _ _ hI hC.2⟩, hstep _ _ _ hI hC.2⟩
  exact (hboth h).1

end EventMachine
