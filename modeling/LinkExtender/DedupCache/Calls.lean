import LinkExtender.DedupCache
import LinkExtender.Library.Recency
import LinkExtender.Library.Trace

/-!
# Sequences of calls of the duplicate cache

What `isDuplicate` answers is told from the calls before it: how many other keys
were used since the key was used last, and when a call with the key was last
answered false.
-/

namespace LinkExtender

open EventMachine History

/-- The arguments of `isDuplicate`, with the reading of the clock. -/
structure DedupCall where
  now : TimePoint
  type : UInt8
  fromNode : NodeId
  message : List UInt8
deriving DecidableEq

def DedupCall.key (call : DedupCall) : DedupKey :=
  ⟨call.type, call.fromNode, fnv1a64 call.message⟩

namespace DedupCache

/-- The constructor. -/
def create (capacity : ℕ) (window : TimePoint) : DedupCache :=
  ⟨capacity, window, [], PartialMap.empty, 0⟩

def machine : Machine DedupCache DedupCall Bool := fun cache call ↦
  let r := cache.isDuplicate call.now call.type call.fromNode call.message
  (r.2, [r.1])

/-- What a call is answered after the calls of `past`. -/
def answer (c : ℕ) (w : TimePoint) (past : List DedupCall) (call : DedupCall) : Bool :=
  ((run machine (create c w) past).isDuplicate call.now call.type call.fromNode
    call.message).1

/-- The key was used, and fewer than `c` other keys have been used since. -/
def UsedWithin (c : ℕ) (past : List DedupCall) (key : DedupKey) : Prop :=
  ∃ before last after, past = before ++ last :: after ∧ last.key = key ∧
    (∀ call ∈ after, call.key ≠ key) ∧ (after.map DedupCall.key).toFinset.card < c

/-- The last call with the key that was answered false was made at `t₀`. -/
def AnchoredAt (c : ℕ) (w : TimePoint) (key : DedupKey) (t₀ : TimePoint) :
    List DedupCall → Prop :=
  Since (fun past call ↦ call.key = key ∧ answer c w past call = false ∧ call.now = t₀)
    (fun past call ↦ call.key = key → answer c w past call = true)

/-- The list of entries and the index agree, and there are at most `c` entries. -/
structure Consistent (c : ℕ) (cache : DedupCache) : Prop where
  wellFormed : cache.WellFormed
  bounded : cache.mEntries.length ≤ c

/-! ## The entries are the keys used last -/

/-- The entries hold the keys used last, in this order, each with the time at which it
was last answered false. -/
structure Lru (c : ℕ) (w : TimePoint) (past : List DedupCall) (cache : DedupCache) :
    Prop where
  wellFormed : cache.WellFormed
  capacity : cache.mCapacity = c
  window : cache.mWindow = w
  keys : cache.mEntries.map DedupNode.key =
    (Recency.order (past.map DedupCall.key)).take c
  anchored : ∀ node ∈ cache.mEntries, AnchoredAt c w node.key node.timestamp past

theorem wellFormed_create (c : ℕ) (w : TimePoint) : (create c w).WellFormed where
  keys := List.nodup_nil
  nodes := List.nodup_nil
  index := by simp [create]
  fresh := by simp [create]

theorem lru_create (c : ℕ) (w : TimePoint) : Lru c w [] (create c w) where
  wellFormed := wellFormed_create c w
  capacity := rfl
  window := rfl
  keys := by simp [create]
  anchored := by simp [create]

theorem map_key_erase {entries : List DedupNode} (hkeys : (entries.map DedupNode.key).Nodup)
    {node : DedupNode} (hnode : node ∈ entries) :
    (entries.erase node).map DedupNode.key = (entries.map DedupNode.key).erase node.key := by
  induction entries with
  | nil => cases hnode
  | cons other entries ih =>
      obtain ⟨hother, hrest⟩ := List.nodup_cons.mp hkeys
      by_cases hsame : other = node
      · subst hsame
        simp
      · have htail : node ∈ entries := (List.mem_cons.mp hnode).resolve_left (Ne.symm hsame)
        have hne : other.key ≠ node.key := fun heq ↦
          hother (heq ▸ List.mem_map_of_mem htail)
        rw [List.erase_cons_tail (by simpa using hsame), List.map_cons, List.map_cons,
          List.erase_cons_tail (by simpa using hne), ih hrest htail]

/-- The keys move as those of a store that drops the key used least recently. -/
theorem keys_isDuplicateKey {cache : DedupCache} (h : cache.WellFormed) (now : TimePoint)
    (key : DedupKey) :
    (cache.isDuplicateKey now key).2.mEntries.map DedupNode.key =
      Recency.touchWithin cache.mCapacity (cache.mEntries.map DedupNode.key) key := by
  unfold Recency.touchWithin
  rcases isDuplicateKey_cases h now key with
    ⟨node, hnode, rfl, -, heq⟩ | ⟨node, hnode, rfl, -, heq⟩ | ⟨hnone, heq⟩
  · rw [heq, if_pos (List.mem_map_of_mem hnode), List.map_cons, map_key_erase h.keys hnode]
  · rw [heq, if_pos (List.mem_map_of_mem hnode), List.map_cons, map_key_erase h.keys hnode]
  · have hnew : key ∉ cache.mEntries.map DedupNode.key := by
      intro hmem
      obtain ⟨node, hnode, hkey⟩ := List.mem_map.mp hmem
      exact key_ne_of_find_eq_none h hnone hnode hkey
    rw [heq, if_neg hnew, List.length_map]
    split
    · cases hback : cache.mEntries.getLast? with
      | none =>
          rw [List.getLast?_eq_none_iff.mp hback]
          simp [evict_of_nil hback, pushFront, List.getLast?_eq_none_iff.mp hback]
      | some back => simp [evict_of_getLast? hback, pushFront, List.map_dropLast]
    · simp [pushFront]

theorem mCapacity_isDuplicateKey (cache : DedupCache) (now : TimePoint) (key : DedupKey) :
    (cache.isDuplicateKey now key).2.mCapacity = cache.mCapacity := by
  unfold isDuplicateKey pushFront evict
  split
  · split
    · dsimp only
      split <;> rfl
    · rfl
  · split
    · dsimp only
      split <;> rfl
    · rfl

theorem lru_concat {c : ℕ} {w : TimePoint} (hc : 1 ≤ c) {past : List DedupCall}
    (h : Lru c w past (run machine (create c w) past)) (call : DedupCall) :
    Lru c w (past ++ [call]) (next machine (run machine (create c w) past) call) where
  wellFormed := wellFormed_isDuplicateKey h.wellFormed call.now call.key
  capacity := (mCapacity_isDuplicateKey ..).trans h.capacity
  window := (mWindow_isDuplicateKey ..).trans h.window
  keys := by
    have hkeys := keys_isDuplicateKey h.wellFormed call.now call.key
    rw [h.capacity, h.keys, Recency.touchWithin_take hc] at hkeys
    rw [List.map_append, List.map_singleton, Recency.order_concat]
    exact hkeys
  anchored := by
    intro node hnode
    rw [AnchoredAt, since_concat]
    rcases mem_entries_isDuplicateKey h.wellFormed call.now call.key hnode with
      ⟨hold, hhit⟩ | ⟨hmiss, hkey, htime⟩
    · exact Or.inr ⟨h.anchored node hold, fun hkey ↦ hhit hkey.symm⟩
    · exact Or.inl ⟨hkey.symm, hmiss, htime.symm⟩

theorem lru_run {c : ℕ} (hc : 1 ≤ c) (w : TimePoint) (past : List DedupCall) :
    Lru c w past (run machine (create c w) past) :=
  history_induction machine (create c w) (I := Lru c w) (lru_create c w)
    (fun _ call h ↦ lru_concat hc h call) past

/-! ## Answers -/

theorem AnchoredAt.unique {c : ℕ} {w : TimePoint} {key : DedupKey} {t₀ t₁ : TimePoint}
    {past : List DedupCall} (h₀ : AnchoredAt c w key t₀ past)
    (h₁ : AnchoredAt c w key t₁ past) : t₀ = t₁ := by
  induction past using List.reverseRecOn with
  | nil => exact absurd h₀ (not_since_nil _ _)
  | append_singleton past call ih =>
      rw [AnchoredAt, since_concat] at h₀ h₁
      rcases h₀ with ⟨hkey, hmiss, rfl⟩ | ⟨h₀, hhit⟩
      · rcases h₁ with ⟨-, -, rfl⟩ | ⟨-, hhit⟩
        · rfl
        · exact absurd (hhit hkey) (by simp [hmiss])
      · rcases h₁ with ⟨hkey, hmiss, -⟩ | ⟨h₁, -⟩
        · exact absurd (hhit hkey) (by simp [hmiss])
        · exact ih h₀ h₁

theorem usedWithin_iff {c : ℕ} {past : List DedupCall} {key : DedupKey} :
    UsedWithin c past key ↔ key ∈ (Recency.order (past.map DedupCall.key)).take c := by
  rw [Recency.mem_take_order]
  constructor
  · rintro ⟨before, last, after, rfl, rfl, hother, hfew⟩
    refine ⟨before.map DedupCall.key, after.map DedupCall.key, by simp, ?_, hfew⟩
    simpa using hother
  · rintro ⟨before, after, heq, hother, hfew⟩
    obtain ⟨before, rest, rfl, rfl, hrest⟩ := List.map_eq_append_iff.mp heq
    obtain ⟨last, after, rfl, rfl, rfl⟩ := List.map_eq_cons_iff.mp hrest
    refine ⟨before, last, after, rfl, rfl, ?_, hfew⟩
    simpa using hother

/-- The cache has a young entry of a key exactly when fewer than `c` other keys were used
since the key was, and the last false answer for the key lies less than the window back. -/
theorem exists_entry_iff {c : ℕ} (hc : 1 ≤ c) (w : TimePoint) (past : List DedupCall)
    (now : TimePoint) (key : DedupKey) :
    (∃ entry ∈ (run machine (create c w) past).mEntries,
        entry.key = key ∧ now - entry.timestamp < w) ↔
      UsedWithin c past key ∧ ∃ t₀, AnchoredAt c w key t₀ past ∧ now - t₀ < w := by
  have hlru := lru_run hc w past
  rw [usedWithin_iff, ← hlru.keys]
  constructor
  · rintro ⟨node, hnode, hkey, hfresh⟩
    exact ⟨hkey ▸ List.mem_map_of_mem hnode, node.timestamp,
      hkey ▸ hlru.anchored node hnode, hfresh⟩
  · rintro ⟨hmem, t₀, hanchored, hfresh⟩
    obtain ⟨node, hnode, hkey⟩ := List.mem_map.mp hmem
    have htime := (hkey ▸ hlru.anchored node hnode : AnchoredAt c w key _ past).unique hanchored
    exact ⟨node, hnode, hkey, htime ▸ hfresh⟩

/-- The cache is an exact least-recently-used cache with anchored times: a call is
answered true exactly when fewer than `c` other keys were used since its key was, and
the last false answer for the key lies less than the window back. -/
theorem answer_iff (c : ℕ) (hc : 1 ≤ c) (w : TimePoint) (past : List DedupCall) :
    Consistent c (run machine (create c w) past) ∧
      ∀ call : DedupCall, answer c w past call = true ↔
        UsedWithin c past call.key ∧
          ∃ t₀, AnchoredAt c w call.key t₀ past ∧ call.now - t₀ < w := by
  have hlru := lru_run hc w past
  have hlength := congrArg List.length hlru.keys
  rw [List.length_map, List.length_take] at hlength
  refine ⟨⟨hlru.wellFormed, by omega⟩, fun call ↦ ?_⟩
  have hanswer := @isDuplicateKey_eq_true_iff _ hlru.wellFormed call.now call.key
  rw [hlru.window] at hanswer
  exact hanswer.trans (exists_entry_iff hc w past call.now call.key)

/-- The same broadcast of three nodes, one after the other. -/
def threeNodes : List DedupCall :=
  [0, 1, 2].map fun i ↦ ⟨0, 98, ⟨List.replicate 8 i, rfl⟩, [1, 2, 3, 4, 5]⟩

/-- In a cache for two, the first of three nodes has been forgotten. -/
theorem answer_iff_threeNodes :
    Consistent 2 (run machine (create 2 kDedupWindow) threeNodes) ∧
      (answer 2 kDedupWindow threeNodes ⟨1, 98, default, [1, 2, 3, 4, 5]⟩ = true ↔
        UsedWithin 2 threeNodes ⟨98, default, fnv1a64 [1, 2, 3, 4, 5]⟩ ∧
          ∃ t₀, AnchoredAt 2 kDedupWindow ⟨98, default, fnv1a64 [1, 2, 3, 4, 5]⟩ t₀
            threeNodes ∧ 1 - t₀ < kDedupWindow) := by
  have h := answer_iff 2 (by decide) kDedupWindow threeNodes
  exact ⟨h.1, h.2 ⟨1, 98, default, [1, 2, 3, 4, 5]⟩⟩

example : answer 2 kDedupWindow threeNodes ⟨1, 98, default, [1, 2, 3, 4, 5]⟩ = false := by
  decide +kernel

end DedupCache

end LinkExtender
