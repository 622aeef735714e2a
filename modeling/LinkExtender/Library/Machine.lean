import Mathlib.Data.List.Basic
import Mathlib.Data.List.Induction

/-!
# Event machines and their runs

A machine reads one event at a time, moves to a new state and emits a list of
outputs.  Runs are finite lists of events read from a given state.  The rules
below are the only inductions over runs that the protocol modules use: a step
fact about one event goes in, a fact about every run comes out.
-/

namespace EventMachine

variable {σ ε ω ρ : Type*}

abbrev Machine (σ ε ω : Type*) := σ → ε → σ × List ω

def next (m : Machine σ ε ω) (s : σ) (e : ε) : σ := (m s e).1

def emit (m : Machine σ ε ω) (s : σ) (e : ε) : List ω := (m s e).2

def run (m : Machine σ ε ω) : σ → List ε → σ
  | s, [] => s
  | s, e :: es => run m (next m s e) es

@[simp] theorem run_nil (m : Machine σ ε ω) (s : σ) : run m s [] = s := rfl

@[simp] theorem run_cons (m : Machine σ ε ω) (s : σ) (e : ε) (es : List ε) :
    run m s (e :: es) = run m (next m s e) es := rfl

@[simp] theorem run_append (m : Machine σ ε ω) (s : σ) (xs ys : List ε) :
    run m s (xs ++ ys) = run m (run m s xs) ys := by
  induction xs generalizing s with
  | nil => rfl
  | cons e xs ih => simp [ih]

theorem run_concat (m : Machine σ ε ω) (s : σ) (es : List ε) (e : ε) :
    run m s (es ++ [e]) = next m (run m s es) e := by
  simp

def outputs (m : Machine σ ε ω) : σ → List ε → List ω
  | _, [] => []
  | s, e :: es => emit m s e ++ outputs m (next m s e) es

@[simp] theorem outputs_nil (m : Machine σ ε ω) (s : σ) : outputs m s [] = [] := rfl

@[simp] theorem outputs_cons (m : Machine σ ε ω) (s : σ) (e : ε) (es : List ε) :
    outputs m s (e :: es) = emit m s e ++ outputs m (next m s e) es := rfl

/-- Let `I` be kept by the events that stand for the elements of a list, and let
each of them show the same output whenever `I` holds.  Then a run over the list
shows these outputs one after the other. -/
theorem filterMap_outputs {α β : Type*} (m : Machine σ ε ω) {I : σ → Prop}
    {event : α → ε} {view : ω → Option β} {seen : α → Option β}
    (hstep : ∀ s a, I s → I (next m s (event a)))
    (hseen : ∀ s a, I s → (emit m s (event a)).filterMap view = (seen a).toList)
    {s : σ} (hs : I s) (as : List α) :
    (outputs m s (as.map event)).filterMap view = as.filterMap seen := by
  induction as generalizing s with
  | nil => rfl
  | cons a as ih =>
      rw [List.map_cons, outputs_cons, List.filterMap_append, hseen s a hs,
        ih (hstep s a hs)]
      cases h : seen a with
      | none => simp [h]
      | some b => simp [h]

/-- Every event of the run is read in a state in which `P` holds of the two. -/
def Along (m : Machine σ ε ω) (P : σ → ε → Prop) : σ → List ε → Prop
  | _, [] => True
  | s, e :: es => P s e ∧ Along m P (next m s e) es

@[simp] theorem along_nil (m : Machine σ ε ω) (P : σ → ε → Prop) (s : σ) :
    Along m P s [] := trivial

@[simp] theorem along_cons (m : Machine σ ε ω) (P : σ → ε → Prop) (s : σ)
    (e : ε) (es : List ε) :
    Along m P s (e :: es) ↔ P s e ∧ Along m P (next m s e) es := Iff.rfl

theorem along_append (m : Machine σ ε ω) (P : σ → ε → Prop) (s : σ) (xs ys : List ε) :
    Along m P s (xs ++ ys) ↔ Along m P s xs ∧ Along m P (run m s xs) ys := by
  induction xs generalizing s with
  | nil => simp
  | cons e xs ih => rw [List.cons_append, along_cons, along_cons, ih, run_cons, and_assoc]

theorem along_concat (m : Machine σ ε ω) (P : σ → ε → Prop) (s : σ) (es : List ε) (e : ε) :
    Along m P s (es ++ [e]) ↔ Along m P s es ∧ P (run m s es) e := by
  rw [along_append, along_cons, and_iff_left (along_nil ..)]

theorem along_of_forall_mem (m : Machine σ ε ω) {P : σ → ε → Prop} {es : List ε}
    (h : ∀ s, ∀ e ∈ es, P s e) (s : σ) : Along m P s es := by
  induction es generalizing s with
  | nil => trivial
  | cons e es ih =>
      exact ⟨h s e List.mem_cons_self, ih (fun s e he ↦ h s e (List.mem_cons_of_mem _ he)) _⟩

theorem outputs_append (m : Machine σ ε ω) (s : σ) (xs ys : List ε) :
    outputs m s (xs ++ ys) = outputs m s xs ++ outputs m (run m s xs) ys := by
  induction xs generalizing s with
  | nil => rfl
  | cons e xs ih => rw [List.cons_append, outputs_cons, outputs_cons, ih, run_cons,
      List.append_assoc]

theorem outputs_concat (m : Machine σ ε ω) (s : σ) (es : List ε) (e : ε) :
    outputs m s (es ++ [e]) = outputs m s es ++ emit m (run m s es) e := by
  rw [outputs_append, outputs_cons, outputs_nil, List.append_nil]

theorem along_and (m : Machine σ ε ω) (P Q : σ → ε → Prop) (s : σ) (es : List ε) :
    Along m (fun s e ↦ P s e ∧ Q s e) s es ↔ Along m P s es ∧ Along m Q s es := by
  induction es generalizing s with
  | nil => simp
  | cons e es ih =>
      rw [along_cons, along_cons, along_cons, ih]
      exact and_and_and_comm

theorem along_forall {α : Type*} (m : Machine σ ε ω) (P : α → σ → ε → Prop) (s : σ)
    (es : List ε) :
    Along m (fun s e ↦ ∀ a, P a s e) s es ↔ ∀ a, Along m (P a) s es := by
  induction es generalizing s with
  | nil => simp
  | cons e es ih =>
      rw [along_cons, ih, ← forall_and]
      rfl

/-- Facts about a run are proved by following it from its start: `I` may speak
of the events read so far and of the state they lead to. -/
theorem history_induction (m : Machine σ ε ω) (s : σ) {I : List ε → σ → Prop}
    (hinit : I [] s)
    (hstep : ∀ past e, I past (run m s past) →
      I (past ++ [e]) (next m (run m s past) e)) :
    ∀ es, I es (run m s es) := by
  intro es
  induction es using List.reverseRecOn with
  | nil => exact hinit
  | append_singleton past e ih =>
      rw [run_concat]
      exact hstep past e ih

theorem run_invariant (m : Machine σ ε ω) {I : σ → Prop}
    (hstep : ∀ s e, I s → I (next m s e)) {s : σ} (hs : I s) (es : List ε) :
    I (run m s es) :=
  history_induction m s (I := fun _ t ↦ I t) hs (fun _ e h ↦ hstep _ e h) es

/-- The same for runs all of whose events meet a condition. -/
theorem run_invariant_along (m : Machine σ ε ω) {I : σ → Prop}
    {P : σ → ε → Prop} (hstep : ∀ s e, I s → P s e → I (next m s e))
    {s : σ} (hs : I s) {es : List ε} (hes : Along m P s es) :
    I (run m s es) := by
  induction es generalizing s with
  | nil => exact hs
  | cons e es ih => exact ih (hstep s e hs hes.1) hes.2

/-- Where `I` is kept by steps that meet `C`, a run whose events all meet `C`
also meets whatever `I` and `C` imply together. -/
theorem along_of_invariant (m : Machine σ ε ω) {I : σ → Prop} {C P : σ → ε → Prop}
    (hstep : ∀ s e, I s → C s e → I (next m s e))
    (himp : ∀ s e, I s → C s e → P s e) {s : σ} (hs : I s) {es : List ε}
    (hes : Along m C s es) : Along m P s es := by
  induction es generalizing s with
  | nil => trivial
  | cons e es ih => exact ⟨himp s e hs hes.1, ih (hstep s e hs hes.1) hes.2⟩

instance decidableAlong (m : Machine σ ε ω) (P : σ → ε → Prop)
    [∀ s e, Decidable (P s e)] : ∀ s es, Decidable (Along m P s es)
  | _, [] => isTrue trivial
  | s, e :: es =>
      have := decidableAlong m P (next m s e) es
      inferInstanceAs (Decidable (P s e ∧ Along m P (next m s e) es))

/-- `I` holds in every state that the run passes through, its two ends included. -/
def Throughout (m : Machine σ ε ω) (I : σ → Prop) (s : σ) (es : List ε) : Prop :=
  ∀ past, past <+: es → I (run m s past)

@[simp] theorem throughout_nil (m : Machine σ ε ω) (I : σ → Prop) (s : σ) :
    Throughout m I s [] ↔ I s := by
  simp [Throughout]

theorem throughout_cons (m : Machine σ ε ω) (I : σ → Prop) (s : σ)
    (e : ε) (es : List ε) :
    Throughout m I s (e :: es) ↔ I s ∧ Throughout m I (next m s e) es := by
  constructor
  · intro h
    refine ⟨h [] List.nil_prefix, ?_⟩
    intro past hpast
    exact h (e :: past) (List.cons_prefix_cons.mpr ⟨rfl, hpast⟩)
  · rintro ⟨hs, h⟩ past hpast
    cases past with
    | nil => exact hs
    | cons e' past =>
        obtain ⟨rfl, htail⟩ := List.cons_prefix_cons.mp hpast
        exact h past htail

theorem Throughout.last {m : Machine σ ε ω} {I : σ → Prop} {s : σ}
    {es : List ε} (h : Throughout m I s es) : I (run m s es) :=
  h es List.prefix_rfl

/-- Let `I` imply `Q`, and let a step from `I` keep `I` where `P` holds and break
`Q` where it does not.  Then a run stays inside `Q` exactly when all of its
events meet `P`. -/
theorem throughout_iff_along (m : Machine σ ε ω) {I Q : σ → Prop}
    {P : σ → ε → Prop} (hIQ : ∀ s, I s → Q s)
    (hkeep : ∀ s e, I s → P s e → I (next m s e))
    (hbreak : ∀ s e, I s → Q (next m s e) → P s e)
    {s : σ} (hs : I s) (es : List ε) :
    Throughout m Q s es ↔ Along m P s es := by
  induction es generalizing s with
  | nil => simpa using hIQ s hs
  | cons e es ih =>
      rw [throughout_cons, along_cons]
      constructor
      · rintro ⟨-, h⟩
        have hP : P s e := hbreak s e hs (h [] List.nil_prefix)
        exact ⟨hP, (ih (hkeep s e hs hP)).mp h⟩
      · rintro ⟨hP, h⟩
        exact ⟨hIQ s hs, (ih (hkeep s e hs hP)).mpr h⟩

/-- A run stays inside `I` exactly when all of its events meet `P`, if that is so for a
single step from `I`. -/
theorem throughout_iff_along_of_next_iff (m : Machine σ ε ω) {I : σ → Prop} {P : σ → ε → Prop}
    (hnext : ∀ s e, I s → (I (next m s e) ↔ P s e)) {s : σ} (hs : I s) (es : List ε) :
    Throughout m I s es ↔ Along m P s es :=
  throughout_iff_along m (fun _ h ↦ h) (fun s e h hP ↦ (hnext s e h).mpr hP)
    (fun s e h hI ↦ (hnext s e h).mp hI) hs es

/-- The same for properties of the events read so far. -/
theorem forall_prefix_iff_along (m : Machine σ ε ω) (s : σ) {I Q : List ε → Prop}
    {P : σ → ε → Prop} (hinit : I []) (hIQ : ∀ past, I past → Q past)
    (hkeep : ∀ past e, I past → P (run m s past) e → I (past ++ [e]))
    (hbreak : ∀ past e, I past → Q (past ++ [e]) → P (run m s past) e) (es : List ε) :
    (∀ past, past <+: es → Q past) ↔ Along m P s es := by
  have hI : ∀ es, Along m P s es → I es := by
    intro es
    induction es using List.reverseRecOn with
    | nil => exact fun _ ↦ hinit
    | append_singleton es e ih =>
        rw [along_concat]
        exact fun h ↦ hkeep es e (ih h.1) h.2
  induction es using List.reverseRecOn with
  | nil => simpa using hIQ [] hinit
  | append_singleton es e ih =>
      have hcut : (∀ past, past <+: es ++ [e] → Q past) ↔
          (∀ past, past <+: es → Q past) ∧ Q (es ++ [e]) := by
        simp only [List.prefix_concat_iff, or_imp, forall_and, forall_eq]
        exact and_comm
      rw [hcut, along_concat]
      refine (and_congr_left' ih).trans (and_congr_right fun halong ↦ ?_)
      refine ⟨hbreak es e (hI es halong), fun hP ↦ ?_⟩
      exact hIQ _ (hkeep es e (hI es halong) hP)

/-- Let `I` be kept by the events that meet `P`, and let a step from `I` show only
outputs in `Q` exactly when its event meets `P`.  Then so it is for runs. -/
theorem forall_outputs_iff_along (m : Machine σ ε ω) {I : σ → Prop} {P : σ → ε → Prop}
    {Q : ω → Prop} (hkeep : ∀ s e, I s → P s e → I (next m s e))
    (hemit : ∀ s e, I s → ((∀ o ∈ emit m s e, Q o) ↔ P s e)) {s : σ} (hs : I s)
    (es : List ε) : (∀ o ∈ outputs m s es, Q o) ↔ Along m P s es := by
  induction es generalizing s with
  | nil => simp
  | cons e es ih =>
      rw [outputs_cons, List.forall_mem_append, along_cons, hemit s e hs]
      exact and_congr_right fun he ↦ ih (hkeep s e hs he)

/-! ## Counting along a run -/

/-- The sum of what `c` counts at each step of the run. -/
def tally (m : Machine σ ε ω) (c : σ → ε → ℕ) : σ → List ε → ℕ
  | _, [] => 0
  | s, e :: es => c s e + tally m c (next m s e) es

/-- A bound for every step bounds the run. -/
theorem tally_le_tally_add (m : Machine σ ε ω) {I : σ → Prop} {P : σ → ε → Prop}
    {c d d' : σ → ε → ℕ} (hstep : ∀ s e, I s → P s e → I (next m s e))
    (hle : ∀ s e, I s → P s e → c s e ≤ d s e + d' s e)
    {s : σ} (hs : I s) {es : List ε} (hes : Along m P s es) :
    tally m c s es ≤ tally m d s es + tally m d' s es := by
  induction es generalizing s with
  | nil => exact Nat.le_refl _
  | cons e es ih =>
      have hhead := hle s e hs hes.1
      have htail := ih (hstep s e hs hes.1) hes.2
      simp only [tally]
      omega

/-- What the steps count is paid for out of a potential. -/
theorem tally_le_potential (m : Machine σ ε ω) {I : σ → Prop} {P : σ → ε → Prop}
    {c : σ → ε → ℕ} {Φ : σ → ℕ} (hstep : ∀ s e, I s → P s e → I (next m s e))
    (hpay : ∀ s e, I s → P s e → c s e + Φ (next m s e) ≤ Φ s)
    {s : σ} (hs : I s) {es : List ε} (hes : Along m P s es) : tally m c s es ≤ Φ s := by
  induction es generalizing s with
  | nil => exact Nat.zero_le _
  | cons e es ih =>
      have hhead := hpay s e hs hes.1
      have htail := ih (hstep s e hs hes.1) hes.2
      simp only [tally]
      omega

/-- No step counts more than the run. -/
theorem along_of_tally_le (m : Machine σ ε ω) {c : σ → ε → ℕ} {b : ℕ} {s : σ}
    {es : List ε} (h : tally m c s es ≤ b) : Along m (fun s e ↦ c s e ≤ b) s es := by
  induction es generalizing s with
  | nil => trivial
  | cons e es ih =>
      simp only [tally] at h
      exact ⟨by omega, ih (by omega)⟩

/-- A run whose steps all lower a potential is no longer than the potential. -/
theorem length_le_potential (m : Machine σ ε ω) {I : σ → Prop} {P : σ → ε → Prop}
    {Φ : σ → ℕ} (hstep : ∀ s e, I s → P s e → I (next m s e))
    (hlt : ∀ s e, I s → P s e → Φ (next m s e) < Φ s)
    {s : σ} (hs : I s) {es : List ε} (hes : Along m P s es) : es.length ≤ Φ s := by
  induction es generalizing s with
  | nil => exact Nat.zero_le _
  | cons e es ih =>
      have hhead := hlt s e hs hes.1
      have htail := ih (hstep s e hs hes.1) hes.2
      rw [List.length_cons]
      omega

/-! ## Simulation -/

section Simulation

variable {σ' ω' : Type*} {m : Machine σ ε ω} {m' : Machine σ' ε ω'} {R : σ → σ' → Prop}

theorem run_simulation (hstep : ∀ s s' e, R s s' → R (next m s e) (next m' s' e))
    {s : σ} {s' : σ'} (h : R s s') (es : List ε) : R (run m s es) (run m' s' es) := by
  induction es generalizing s s' with
  | nil => exact h
  | cons e es ih => exact ih (hstep s s' e h)

/-- Where the two show the same at every step, they show the same all along. -/
theorem outputs_simulation {m₂ : Machine σ' ε ω}
    (hstep : ∀ s s' e, R s s' → R (next m s e) (next m₂ s' e))
    (hemit : ∀ s s' e, R s s' → emit m s e = emit m₂ s' e) {s : σ} {s' : σ'} (h : R s s')
    (es : List ε) : outputs m s es = outputs m₂ s' es := by
  induction es generalizing s s' with
  | nil => rfl
  | cons e es ih => rw [outputs_cons, outputs_cons, hemit s s' e h, ih (hstep s s' e h)]

/-- Where what is seen of the two is the same at every step, it is the same all along. -/
theorem filterMap_outputs_simulation {β : Type*} {view : ω → Option β} {view' : ω' → Option β}
    (hstep : ∀ s s' e, R s s' → R (next m s e) (next m' s' e))
    (hview : ∀ s s' e, R s s' → (emit m s e).filterMap view = (emit m' s' e).filterMap view')
    {s : σ} {s' : σ'} (h : R s s') (es : List ε) :
    (outputs m s es).filterMap view = (outputs m' s' es).filterMap view' := by
  induction es generalizing s s' with
  | nil => rfl
  | cons e es ih =>
      rw [outputs_cons, outputs_cons, List.filterMap_append, List.filterMap_append,
        hview s s' e h, ih (hstep s s' e h)]

/-- Where every step of the one is answered by steps of the other, what is seen of its
runs is seen of runs of the other. -/
theorem exists_run_simulation {ε' β : Type*} {a : Machine σ' ε' β} {view : ω → Option β}
    (hstep : ∀ s s' e, R s s' →
      ∃ es', R (next m s e) (run a s' es') ∧ (emit m s e).filterMap view = outputs a s' es')
    {s : σ} {s' : σ'} (h : R s s') (es : List ε) :
    ∃ es', R (run m s es) (run a s' es') ∧ (outputs m s es).filterMap view = outputs a s' es' := by
  induction es generalizing s s' with
  | nil => exact ⟨[], h, rfl⟩
  | cons e es ih =>
      obtain ⟨first, hfirst, hview⟩ := hstep s s' e h
      obtain ⟨rest, hrest, hviews⟩ := ih hfirst
      refine ⟨first ++ rest, ?_, ?_⟩
      · rw [run_cons, run_append]
        exact hrest
      · rw [outputs_cons, List.filterMap_append, hview, hviews, outputs_append]

theorem along_simulation (hstep : ∀ s s' e, R s s' → R (next m s e) (next m' s' e))
    {P : σ → ε → Prop} {P' : σ' → ε → Prop} (hP : ∀ s s' e, R s s' → (P s e ↔ P' s' e))
    {s : σ} {s' : σ'} (h : R s s') (es : List ε) :
    Along m P s es ↔ Along m' P' s' es := by
  induction es generalizing s s' with
  | nil => simp
  | cons e es ih => rw [along_cons, along_cons, hP s s' e h, ih (hstep s s' e h)]

end Simulation

/-! ## Monitors

A monitor keeps a record of its own next to a machine.  It reads the state
before each event and the event, and never influences the machine. -/

def monitored (m : Machine σ ε ω) (μ : ρ → σ → ε → ρ) : Machine (σ × ρ) ε ω :=
  fun p e ↦ ((next m p.1 e, μ p.2 p.1 e), emit m p.1 e)

@[simp] theorem next_monitored (m : Machine σ ε ω) (μ : ρ → σ → ε → ρ)
    (p : σ × ρ) (e : ε) :
    next (monitored m μ) p e = (next m p.1 e, μ p.2 p.1 e) := rfl

@[simp] theorem emit_monitored (m : Machine σ ε ω) (μ : ρ → σ → ε → ρ)
    (p : σ × ρ) (e : ε) : emit (monitored m μ) p e = emit m p.1 e := rfl

@[simp] theorem run_monitored_fst (m : Machine σ ε ω) (μ : ρ → σ → ε → ρ)
    (p : σ × ρ) (es : List ε) :
    (run (monitored m μ) p es).1 = run m p.1 es := by
  induction es generalizing p with
  | nil => rfl
  | cons e es ih => simp [ih]

theorem along_monitored (m : Machine σ ε ω) (μ : ρ → σ → ε → ρ)
    (P : σ → ε → Prop) (p : σ × ρ) (es : List ε) :
    Along (monitored m μ) (fun p e ↦ P p.1 e) p es ↔ Along m P p.1 es := by
  induction es generalizing p with
  | nil => simp
  | cons e es ih => simp [ih]

end EventMachine
