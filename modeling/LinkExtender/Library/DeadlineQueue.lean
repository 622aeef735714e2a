import Mathlib.Data.List.Basic
import Mathlib.Data.List.Nodup
import Mathlib.Data.List.TakeWhile
import Mathlib.Order.Basic
import Mathlib.Tactic.Order

/-!
# Queues ordered by deadline

A list of keys with deadlines, sorted by deadline, in which every key occurs at
most once.  Setting a deadline puts the key behind all entries that are due no
later; expiring cuts off the front of the queue.  Both searches are binary in an
implementation over arrays and find the same position in a sorted list.
-/

structure DeadlineQueue (τ κ : Type*) [LinearOrder τ] where
  entries : List (τ × κ)
  sorted : entries.Pairwise (fun a b ↦ a.1 ≤ b.1)
  nodup : (entries.map Prod.snd).Nodup
deriving DecidableEq

namespace DeadlineQueue

variable {τ κ : Type*} [LinearOrder τ]

def empty : DeadlineQueue τ κ := ⟨[], .nil, .nil⟩

def keys (q : DeadlineQueue τ κ) : List κ := q.entries.map Prod.snd

@[simp] theorem keys_empty : (empty : DeadlineQueue τ κ).keys = [] := rfl

theorem mem_keys {q : DeadlineQueue τ κ} {k : κ} :
    k ∈ q.keys ↔ ∃ t, (t, k) ∈ q.entries := by
  simp [keys]

def front (q : DeadlineQueue τ κ) : Option τ := q.entries.head?.map Prod.fst

theorem exists_mem_of_front {q : DeadlineQueue τ κ} {t : τ} (h : q.front = some t) :
    ∃ k, (t, k) ∈ q.entries := by
  obtain ⟨e, he, rfl⟩ := Option.map_eq_some_iff.mp h
  exact ⟨e.2, List.mem_of_head? he⟩

theorem front_le {q : DeadlineQueue τ κ} {t : τ} (h : q.front = some t) {e : τ × κ}
    (he : e ∈ q.entries) : t ≤ e.1 := by
  obtain ⟨first, hfirst, rfl⟩ := Option.map_eq_some_iff.mp h
  obtain ⟨rest, hentries⟩ := List.head?_eq_some_iff.mp hfirst
  have hsorted := q.sorted
  rw [hentries] at hsorted he
  rcases List.mem_cons.mp he with rfl | he
  · exact le_rfl
  · exact (List.pairwise_cons.mp hsorted).1 e he

theorem entries_eq_nil_of_front {q : DeadlineQueue τ κ} (h : q.front = none) :
    q.entries = [] :=
  List.head?_eq_none_iff.mp (Option.map_eq_none_iff.mp h)

/-! ## Prefixes of sorted lists -/

/-- In a sorted list the entries before a threshold form a prefix. -/
theorem takeWhile_eq_filter {l : List (τ × κ)} {p : τ → Bool}
    (hsorted : l.Pairwise (fun a b ↦ a.1 ≤ b.1))
    (hp : ∀ a b, a ≤ b → p b = true → p a = true) :
    l.takeWhile (fun e ↦ p e.1) = l.filter (fun e ↦ p e.1) := by
  induction l with
  | nil => rfl
  | cons e l ih =>
      obtain ⟨hfirst, htail⟩ := List.pairwise_cons.mp hsorted
      by_cases he : p e.1 = true
      · simp [he, ih htail]
      · have hnone : l.filter (fun e ↦ p e.1) = [] := by
          apply List.filter_eq_nil_iff.mpr
          intro e' he' hpe'
          apply he
          exact hp _ _ (hfirst e' he') hpe'
        simp [he, hnone]

theorem mem_dropWhile_iff {l : List (τ × κ)} {p : τ → Bool}
    (hsorted : l.Pairwise (fun a b ↦ a.1 ≤ b.1))
    (hp : ∀ a b, a ≤ b → p b = true → p a = true) {e : τ × κ} :
    e ∈ l.dropWhile (fun e ↦ p e.1) ↔ e ∈ l ∧ p e.1 = false := by
  induction l with
  | nil => simp
  | cons e' l ih =>
      obtain ⟨hfirst, htail⟩ := List.pairwise_cons.mp hsorted
      by_cases he' : p e'.1 = true
      · simp only [List.dropWhile_cons, he', if_true, ih htail, List.mem_cons]
        constructor
        · rintro ⟨hmem, hpe⟩
          exact ⟨Or.inr hmem, hpe⟩
        · rintro ⟨rfl | hmem, hpe⟩
          · simp [he'] at hpe
          · exact ⟨hmem, hpe⟩
      · simp only [List.dropWhile_cons, he', Bool.false_eq_true, if_false, List.mem_cons]
        constructor
        · rintro (rfl | hmem)
          · exact ⟨Or.inl rfl, by simpa using he'⟩
          · refine ⟨Or.inr hmem, ?_⟩
            by_contra hpe
            apply he'
            exact hp _ _ (hfirst e hmem) (by simpa using hpe)
        · rintro ⟨hmem, -⟩
          exact hmem

/-! ## Inserting in order -/

/-- Put an entry behind all those that are due no later. -/
def insertAt (e : τ × κ) (l : List (τ × κ)) : List (τ × κ) :=
  l.takeWhile (fun e' ↦ e'.1 ≤ e.1) ++ e :: l.dropWhile (fun e' ↦ e'.1 ≤ e.1)

theorem insertAt_perm (e : τ × κ) (l : List (τ × κ)) :
    (insertAt e l).Perm (e :: l) := by
  refine List.perm_middle.trans (List.Perm.cons e ?_)
  rw [List.takeWhile_append_dropWhile]

theorem sorted_insertAt {e : τ × κ} {l : List (τ × κ)}
    (hsorted : l.Pairwise (fun a b ↦ a.1 ≤ b.1)) :
    (insertAt e l).Pairwise (fun a b ↦ a.1 ≤ b.1) := by
  have hdown : ∀ a b : τ, a ≤ b → decide (b ≤ e.1) = true → decide (a ≤ e.1) = true := by
    intro a b hab hb
    simp only [decide_eq_true_eq] at hb ⊢
    exact hab.trans hb
  have hback : ∀ e' ∈ l.dropWhile (fun e' ↦ e'.1 ≤ e.1), e.1 ≤ e'.1 := by
    intro e' he'
    have hpe := ((mem_dropWhile_iff (p := fun t ↦ t ≤ e.1) hsorted hdown).mp he').2
    exact (not_le.mp (by simpa using hpe)).le
  have hfront : ∀ e' ∈ l.takeWhile (fun e' ↦ e'.1 ≤ e.1), e'.1 ≤ e.1 := by
    intro e' he'
    simpa using List.mem_takeWhile_imp he'
  refine List.pairwise_append.mpr ⟨hsorted.sublist (List.takeWhile_sublist _), ?_, ?_⟩
  · apply List.pairwise_cons.mpr
    exact ⟨hback, hsorted.sublist (List.dropWhile_sublist _)⟩
  · intro a ha b hb
    rcases List.mem_cons.mp hb with rfl | hb
    · exact hfront a ha
    · exact (hfront a ha).trans (hback b hb)

/-! ## Removing and setting -/

section Keyed

variable [DecidableEq κ]

def erase (q : DeadlineQueue τ κ) (k : κ) : DeadlineQueue τ κ where
  entries := q.entries.filter (fun e ↦ e.2 ≠ k)
  sorted := q.sorted.filter _
  nodup := q.nodup.sublist (List.filter_sublist.map _)

theorem mem_entries_erase {q : DeadlineQueue τ κ} {k : κ} {e : τ × κ} :
    e ∈ (q.erase k).entries ↔ e ∈ q.entries ∧ e.2 ≠ k := by
  simp [erase]

@[simp] theorem mem_keys_erase {q : DeadlineQueue τ κ} {k k' : κ} :
    k' ∈ (q.erase k).keys ↔ k' ∈ q.keys ∧ k' ≠ k := by
  simp only [mem_keys, mem_entries_erase]
  exact exists_and_right

/-- Give `k` the deadline `t`, whether it had one or not. -/
def set (q : DeadlineQueue τ κ) (t : τ) (k : κ) : DeadlineQueue τ κ where
  entries := insertAt (t, k) (q.erase k).entries
  sorted := sorted_insertAt (q.erase k).sorted
  nodup := by
    have hperm := (insertAt_perm (t, k) (q.erase k).entries).map Prod.snd
    refine hperm.nodup_iff.mpr (List.nodup_cons.mpr ⟨?_, (q.erase k).nodup⟩)
    intro hmem
    exact (mem_keys_erase.mp hmem).2 rfl

theorem mem_entries_set {q : DeadlineQueue τ κ} {t : τ} {k : κ} {e : τ × κ} :
    e ∈ (q.set t k).entries ↔ e = (t, k) ∨ (e ∈ q.entries ∧ e.2 ≠ k) := by
  rw [← mem_entries_erase, ← List.mem_cons]
  exact (insertAt_perm (t, k) (q.erase k).entries).mem_iff

@[simp] theorem mem_keys_set {q : DeadlineQueue τ κ} {t : τ} {k k' : κ} :
    k' ∈ (q.set t k).keys ↔ k' = k ∨ k' ∈ q.keys := by
  simp only [mem_keys, mem_entries_set, Prod.mk.injEq]
  constructor
  · rintro ⟨t', ⟨-, rfl⟩ | ⟨hmem, -⟩⟩
    · exact Or.inl rfl
    · exact Or.inr ⟨t', hmem⟩
  · rintro (rfl | ⟨t', hmem⟩)
    · exact ⟨t, Or.inl ⟨rfl, rfl⟩⟩
    · by_cases hk : k' = k
      · exact ⟨t, Or.inl ⟨rfl, hk⟩⟩
      · exact ⟨t', Or.inr ⟨hmem, hk⟩⟩

end Keyed

/-! ## Expiry -/

theorem lt_of_le_of_due {now : τ} (a b : τ) (hab : a ≤ b) (hb : decide (b < now) = true) :
    decide (a < now) = true :=
  decide_eq_true (hab.trans_lt (of_decide_eq_true hb))

/-- The keys whose deadline lies before `now`, in order of their deadlines. -/
def due (q : DeadlineQueue τ κ) (now : τ) : List κ :=
  (q.entries.takeWhile (fun e ↦ e.1 < now)).map Prod.snd

def expire (q : DeadlineQueue τ κ) (now : τ) : DeadlineQueue τ κ where
  entries := q.entries.dropWhile (fun e ↦ e.1 < now)
  sorted := q.sorted.sublist (List.dropWhile_sublist _)
  nodup := q.nodup.sublist ((List.dropWhile_sublist _).map _)

theorem keys_eq_due_append (q : DeadlineQueue τ κ) (now : τ) :
    q.keys = q.due now ++ (q.expire now).keys := by
  rw [due, keys, keys, expire, ← List.map_append, List.takeWhile_append_dropWhile]

theorem mem_due {q : DeadlineQueue τ κ} {now : τ} {k : κ} :
    k ∈ q.due now ↔ ∃ t, (t, k) ∈ q.entries ∧ t < now := by
  rw [due, takeWhile_eq_filter (p := fun t ↦ t < now) q.sorted lt_of_le_of_due]
  simp

theorem nodup_due (q : DeadlineQueue τ κ) (now : τ) : (q.due now).Nodup :=
  q.nodup.sublist ((List.takeWhile_sublist _).map _)

theorem mem_entries_expire {q : DeadlineQueue τ κ} {now : τ} {e : τ × κ} :
    e ∈ (q.expire now).entries ↔ e ∈ q.entries ∧ now ≤ e.1 := by
  rw [expire, mem_dropWhile_iff (p := fun t ↦ t < now) q.sorted lt_of_le_of_due]
  simp

/-- A key is either expired or kept, never both. -/
theorem mem_keys_expire {q : DeadlineQueue τ κ} {now : τ} {k : κ} :
    k ∈ (q.expire now).keys ↔ k ∈ q.keys ∧ k ∉ q.due now := by
  have hnodup : (q.due now ++ (q.expire now).keys).Nodup :=
    keys_eq_due_append q now ▸ q.nodup
  rw [keys_eq_due_append q now, List.mem_append]
  constructor
  · intro hkept
    exact ⟨Or.inr hkept, fun hdue ↦ List.disjoint_of_nodup_append hnodup hdue hkept⟩
  · rintro ⟨hdue | hkept, hnot⟩
    · exact absurd hdue hnot
    · exact hkept

end DeadlineQueue
