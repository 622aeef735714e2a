import LinkExtender.Wire
import LinkExtender.Library.PartialMap
import Mathlib.Data.List.Nodup
import Mathlib.Data.List.Perm.Basic
import Mathlib.Data.List.Basic

/-!
# The duplicate cache

`DedupCache`: a bounded least-recently-used list with an index of iterators
into it.  A list node is identified by the number it was allocated under, which
is what the index stores in place of the source's `std::list` iterator.
-/

namespace LinkExtender

def kDedupWindow : TimePoint := milliseconds 50

def kDedupCacheCapacity : ℕ := 256

def fnv1a64 (bytes : List UInt8) : UInt64 :=
  bytes.foldl (fun h p ↦ (h ^^^ p.toUInt64) * 1099511628211) 14695981039346656037

structure DedupKey where
  type : UInt8
  fromNode : NodeId
  hash : UInt64
deriving DecidableEq

/-- A node of `mEntries`: a `DedupCache::Entry` and where it was allocated. -/
structure DedupNode where
  iterator : ℕ
  key : DedupKey
  timestamp : TimePoint
deriving DecidableEq

/-- What the index has to know of a node. -/
def DedupNode.slot (node : DedupNode) : DedupKey × ℕ := (node.key, node.iterator)

structure DedupCache where
  mCapacity : ℕ
  mWindow : TimePoint
  mEntries : List DedupNode
  mIndex : PartialMap DedupKey ℕ
  /-- The node that the next allocation yields. -/
  nextIterator : ℕ

namespace DedupCache

def initial : DedupCache :=
  ⟨kDedupCacheCapacity, kDedupWindow, [], PartialMap.empty, 0⟩

/-- Drop the least recently used entry.  The back of an empty list is only
asked for at capacity zero, which no constructor call uses. -/
def evict (cache : DedupCache) : DedupCache :=
  match cache.mEntries.getLast? with
  | none => cache
  | some back =>
      { cache with
        mIndex := cache.mIndex.erase back.key
        mEntries := cache.mEntries.dropLast }

def pushFront (cache : DedupCache) (key : DedupKey) (now : TimePoint) : DedupCache :=
  { cache with
    mEntries := ⟨cache.nextIterator, key, now⟩ :: cache.mEntries
    mIndex := cache.mIndex.insert key cache.nextIterator
    nextIterator := cache.nextIterator + 1 }

/-- `DedupCache::isDuplicate` after its key has been built. -/
def isDuplicateKey (cache : DedupCache) (now : TimePoint) (key : DedupKey) :
    Bool × DedupCache :=
  match cache.mIndex.find key with
  | some entryIt =>
      match cache.mEntries.find? (fun node ↦ node.iterator = entryIt) with
      | some node =>
          let others := cache.mEntries.erase node
          if now - node.timestamp < cache.mWindow then
            (true, { cache with mEntries := node :: others })
          else
            (false, { cache with mEntries := { node with timestamp := now } :: others })
      | none => (false, cache)  -- a dangling iterator, excluded by `WellFormed`
  | none =>
      if cache.mCapacity ≤ cache.mEntries.length then
        (false, cache.evict.pushFront key now)
      else (false, cache.pushFront key now)

def isDuplicate (cache : DedupCache) (now : TimePoint) (type : UInt8)
    (fromNode : NodeId) (message : List UInt8) : Bool × DedupCache :=
  cache.isDuplicateKey now ⟨type, fromNode, fnv1a64 message⟩

/-! ## The list and its index agree -/

/-- Keys and nodes are unique, the index points from each key to its node, and
new nodes are fresh. -/
structure WellFormed (cache : DedupCache) : Prop where
  keys : (cache.mEntries.map DedupNode.key).Nodup
  nodes : (cache.mEntries.map DedupNode.iterator).Nodup
  index : ∀ key it, cache.mIndex.find key = some it ↔
    (key, it) ∈ cache.mEntries.map DedupNode.slot
  fresh : ∀ node ∈ cache.mEntries, node.iterator < cache.nextIterator

theorem wellFormed_initial : initial.WellFormed where
  keys := List.nodup_nil
  nodes := List.nodup_nil
  index := by simp [initial]
  fresh := by simp [initial]

theorem WellFormed.of_slots {cache : DedupCache} (h : cache.WellFormed)
    {entries : List DedupNode}
    (hperm : (entries.map DedupNode.slot).Perm (cache.mEntries.map DedupNode.slot)) :
    { cache with mEntries := entries : DedupCache }.WellFormed := by
  have hkeys : (entries.map DedupNode.key).Perm (cache.mEntries.map DedupNode.key) := by
    simpa [DedupNode.slot, Function.comp_def] using hperm.map Prod.fst
  have hnodes : (entries.map DedupNode.iterator).Perm
      (cache.mEntries.map DedupNode.iterator) := by
    simpa [DedupNode.slot, Function.comp_def] using hperm.map Prod.snd
  refine ⟨hkeys.nodup_iff.mpr h.keys, hnodes.nodup_iff.mpr h.nodes, ?_, ?_⟩
  · intro key it
    rw [h.index]
    exact hperm.mem_iff.symm
  · intro node hnode
    have hmem : node.iterator ∈ cache.mEntries.map DedupNode.iterator :=
      hnodes.mem_iff.mp (List.mem_map_of_mem hnode)
    obtain ⟨node', hnode', heq⟩ := List.mem_map.mp hmem
    exact heq ▸ h.fresh node' hnode'

theorem evict_of_getLast? {cache : DedupCache} {back : DedupNode}
    (hback : cache.mEntries.getLast? = some back) :
    cache.evict = { cache with
      mIndex := cache.mIndex.erase back.key
      mEntries := cache.mEntries.dropLast } := by
  simp [evict, hback]

theorem evict_of_nil {cache : DedupCache} (hback : cache.mEntries.getLast? = none) :
    cache.evict = cache := by
  simp [evict, hback]

theorem WellFormed.evict {cache : DedupCache} (h : cache.WellFormed) :
    cache.evict.WellFormed := by
  cases hback : cache.mEntries.getLast? with
  | none => rwa [evict_of_nil hback]
  | some back =>
      rw [evict_of_getLast? hback]
      have hsplit : cache.mEntries = cache.mEntries.dropLast ++ [back] :=
        (List.dropLast_append_getLast? back hback).symm
      have hkeys := h.keys
      have hnodes := h.nodes
      rw [hsplit, List.map_append] at hkeys hnodes
      refine ⟨hkeys.of_append_left, hnodes.of_append_left, ?_, ?_⟩
      · intro key it
        have hindex := h.index key it
        rw [hsplit, List.map_append, List.mem_append] at hindex
        have hback' : key = back.key →
            (key, it) ∉ cache.mEntries.dropLast.map DedupNode.slot := by
          rintro rfl hmem
          obtain ⟨node, hnode, heq⟩ := List.mem_map.mp hmem
          have hkey : node.key = back.key := congrArg Prod.fst heq
          exact (List.nodup_append.mp hkeys).2.2 _ (List.mem_map_of_mem hnode) _
            (by simp) hkey
        rw [PartialMap.find_erase_eq_some, hindex]
        constructor
        · rintro ⟨hne, hmem | hmem⟩
          · exact hmem
          · have hslot : (key, it) = back.slot := List.mem_singleton.mp hmem
            exact absurd (congrArg Prod.fst hslot) hne
        · intro hmem
          exact ⟨fun heq ↦ hback' heq hmem, Or.inl hmem⟩
      · intro node hnode
        apply h.fresh node
        exact List.mem_of_mem_dropLast hnode

theorem find_evict_eq_none {cache : DedupCache} {key : DedupKey}
    (hkey : cache.mIndex.find key = none) : cache.evict.mIndex.find key = none := by
  cases hback : cache.mEntries.getLast? with
  | none => rwa [evict_of_nil hback]
  | some back => simp [evict_of_getLast? hback, PartialMap.find_erase, hkey]

theorem WellFormed.pushFront {cache : DedupCache} (h : cache.WellFormed)
    {key : DedupKey} (hkey : cache.mIndex.find key = none) (now : TimePoint) :
    (cache.pushFront key now).WellFormed := by
  have hnew : key ∉ cache.mEntries.map DedupNode.key := by
    intro hmem
    obtain ⟨node, hnode, rfl⟩ := List.mem_map.mp hmem
    have hfind := (h.index node.key node.iterator).mpr
      (List.mem_map.mpr ⟨node, hnode, rfl⟩)
    simp [hkey] at hfind
  refine ⟨List.nodup_cons.mpr ⟨hnew, h.keys⟩, List.nodup_cons.mpr ⟨?_, h.nodes⟩,
    ?_, ?_⟩
  · intro hmem
    obtain ⟨node, hnode, heq⟩ := List.mem_map.mp hmem
    exact absurd heq (h.fresh node hnode).ne
  · intro key' it
    by_cases heq : key' = key
    · subst heq
      have hnotMem : (key', it) ∉ cache.mEntries.map DedupNode.slot := by
        rw [← h.index, hkey]
        simp
      simp [DedupCache.pushFront, DedupNode.slot, eq_comm] at hnotMem ⊢
      intro node hnode hnodeKey hit
      exact absurd hit (hnotMem node hnode hnodeKey)
    · simp only [DedupCache.pushFront, PartialMap.find_insert_of_ne _ heq, h.index,
        List.map_cons, List.mem_cons, DedupNode.slot, Prod.mk.injEq, heq, false_and,
        false_or]
  · intro node hnode
    rcases List.mem_cons.mp hnode with rfl | hnode
    · exact Nat.lt_succ_self _
    · exact (h.fresh node hnode).trans (Nat.lt_succ_self _)

theorem WellFormed.find_node {cache : DedupCache} (h : cache.WellFormed)
    {key : DedupKey} {it : ℕ} (hfind : cache.mIndex.find key = some it) :
    ∃ node ∈ cache.mEntries, node.key = key ∧ node.iterator = it ∧
      cache.mEntries.find? (fun node ↦ node.iterator = it) = some node := by
  obtain ⟨node, hnode, hslot⟩ := List.mem_map.mp ((h.index key it).mp hfind)
  obtain ⟨rfl, rfl⟩ := Prod.mk.inj hslot
  refine ⟨node, hnode, rfl, rfl, ?_⟩
  cases hfound : cache.mEntries.find? (fun n ↦ n.iterator = node.iterator) with
  | none =>
      have := List.find?_eq_none.mp hfound node hnode
      simp at this
  | some other =>
      have hmem := List.mem_of_find?_eq_some hfound
      have hit : other.iterator = node.iterator := by
        simpa using List.find?_some hfound
      rw [List.inj_on_of_nodup_map h.nodes hmem hnode hit]

/-- What one call does: a hit on a fresh entry answers true and only reorders;
everything else answers false and leaves a new timestamp for the key. -/
theorem isDuplicateKey_cases {cache : DedupCache} (h : cache.WellFormed)
    (now : TimePoint) (key : DedupKey) :
    (∃ node ∈ cache.mEntries, node.key = key ∧
      now - node.timestamp < cache.mWindow ∧
      cache.isDuplicateKey now key =
        (true, { cache with mEntries := node :: cache.mEntries.erase node })) ∨
    (∃ node ∈ cache.mEntries, node.key = key ∧
      ¬ now - node.timestamp < cache.mWindow ∧
      cache.isDuplicateKey now key =
        (false, { cache with
          mEntries := { node with timestamp := now } :: cache.mEntries.erase node })) ∨
    (cache.mIndex.find key = none ∧
      cache.isDuplicateKey now key =
        (false, (if cache.mCapacity ≤ cache.mEntries.length then cache.evict
          else cache).pushFront key now)) := by
  cases hfind : cache.mIndex.find key with
  | none =>
      refine Or.inr (Or.inr ⟨rfl, ?_⟩)
      simp only [isDuplicateKey, hfind]
      split <;> rfl
  | some it =>
      obtain ⟨node, hnode, hkey, -, hfound⟩ := h.find_node hfind
      by_cases hfresh : now - node.timestamp < cache.mWindow
      · exact Or.inl ⟨node, hnode, hkey, hfresh,
          by simp [isDuplicateKey, hfind, hfound, hfresh]⟩
      · exact Or.inr (Or.inl ⟨node, hnode, hkey, hfresh,
          by simp [isDuplicateKey, hfind, hfound, hfresh]⟩)

theorem wellFormed_isDuplicateKey {cache : DedupCache} (h : cache.WellFormed)
    (now : TimePoint) (key : DedupKey) :
    (cache.isDuplicateKey now key).2.WellFormed := by
  rcases isDuplicateKey_cases h now key with
    ⟨node, hnode, -, -, heq⟩ | ⟨node, hnode, -, -, heq⟩ | ⟨hnone, heq⟩
  · rw [heq]
    apply h.of_slots
    exact (List.perm_cons_erase hnode).symm.map _
  · rw [heq]
    apply h.of_slots
    exact (List.perm_cons_erase hnode).symm.map DedupNode.slot
  · rw [heq]
    split
    · exact h.evict.pushFront (find_evict_eq_none hnone) now
    · exact h.pushFront hnone now

theorem key_ne_of_find_eq_none {cache : DedupCache} (h : cache.WellFormed) {key : DedupKey}
    (hnone : cache.mIndex.find key = none) {node : DedupNode} (hnode : node ∈ cache.mEntries) :
    node.key ≠ key := by
  rintro rfl
  have hfind := (h.index node.key node.iterator).mpr (List.mem_map.mpr ⟨node, hnode, rfl⟩)
  simp [hnone] at hfind

theorem mem_of_mem_entries_evict {cache : DedupCache} {node : DedupNode}
    (hnode : node ∈ cache.evict.mEntries) : node ∈ cache.mEntries := by
  cases hback : cache.mEntries.getLast? with
  | none => rwa [evict_of_nil hback] at hnode
  | some back =>
      rw [evict_of_getLast? hback] at hnode
      exact List.mem_of_mem_dropLast hnode

/-- An entry of the key that was asked for is new, unless the answer was true. -/
theorem mem_entries_isDuplicateKey {cache : DedupCache} (h : cache.WellFormed)
    (now : TimePoint) (key : DedupKey) {node : DedupNode}
    (hnode : node ∈ (cache.isDuplicateKey now key).2.mEntries) :
    (node ∈ cache.mEntries ∧ (node.key = key → (cache.isDuplicateKey now key).1 = true)) ∨
      ((cache.isDuplicateKey now key).1 = false ∧ node.key = key ∧ node.timestamp = now) := by
  rcases isDuplicateKey_cases h now key with
    ⟨hit, hhit, -, -, heq⟩ | ⟨stale, hstale, hkey, -, heq⟩ | ⟨hnone, heq⟩
  · rw [heq] at hnode ⊢
    rcases List.mem_cons.mp hnode with rfl | hnode
    · exact Or.inl ⟨hhit, fun _ ↦ rfl⟩
    · exact Or.inl ⟨List.mem_of_mem_erase hnode, fun _ ↦ rfl⟩
  · rw [heq] at hnode ⊢
    rcases List.mem_cons.mp hnode with rfl | hnode
    · exact Or.inr ⟨rfl, hkey, rfl⟩
    · obtain ⟨hne, hnode⟩ := (h.keys.of_map _).mem_erase_iff.mp hnode
      refine Or.inl ⟨hnode, fun hsame ↦ ?_⟩
      exact absurd (List.inj_on_of_nodup_map h.keys hnode hstale (hsame.trans hkey.symm)) hne
  · rw [heq] at hnode ⊢
    rcases List.mem_cons.mp hnode with rfl | hnode
    · exact Or.inr ⟨rfl, rfl, rfl⟩
    · have hold : node ∈ cache.mEntries := by
        split at hnode
        · exact mem_of_mem_entries_evict hnode
        · exact hnode
      exact Or.inl ⟨hold, fun hsame ↦ absurd hsame (key_ne_of_find_eq_none h hnone hold)⟩

/-- A call answers true only for a key whose entry is younger than the window. -/
theorem exists_entry_of_isDuplicateKey {cache : DedupCache} (h : cache.WellFormed)
    {now : TimePoint} {key : DedupKey} (hdup : (cache.isDuplicateKey now key).1 = true) :
    ∃ node ∈ cache.mEntries, node.key = key ∧ now - node.timestamp < cache.mWindow := by
  rcases isDuplicateKey_cases h now key with
    ⟨node, hnode, hkey, hfresh, -⟩ | ⟨_, -, -, -, heq⟩ | ⟨-, heq⟩
  · exact ⟨node, hnode, hkey, hfresh⟩
  · simp [heq] at hdup
  · simp [heq] at hdup

/-- And it does so for every such key. -/
theorem isDuplicateKey_eq_true_iff {cache : DedupCache} (h : cache.WellFormed)
    {now : TimePoint} {key : DedupKey} :
    (cache.isDuplicateKey now key).1 = true ↔
      ∃ node ∈ cache.mEntries, node.key = key ∧ now - node.timestamp < cache.mWindow := by
  refine ⟨exists_entry_of_isDuplicateKey h, ?_⟩
  rintro ⟨node, hnode, hkey, hfresh⟩
  rcases isDuplicateKey_cases h now key with
    ⟨_, -, -, -, heq⟩ | ⟨stale, hstale, hkey', hold, -⟩ | ⟨hnone, -⟩
  · rw [heq]
  · have hsame : node = stale :=
      List.inj_on_of_nodup_map h.keys hnode hstale (hkey.trans hkey'.symm)
    exact absurd (hsame ▸ hfresh) hold
  · exact absurd hkey (key_ne_of_find_eq_none h hnone hnode)

@[simp] theorem mWindow_isDuplicateKey (cache : DedupCache) (now : TimePoint)
    (key : DedupKey) : (cache.isDuplicateKey now key).2.mWindow = cache.mWindow := by
  unfold isDuplicateKey pushFront evict
  split
  · split
    · dsimp only
      split <;> rfl
    · rfl
  · split
    · dsimp only
      split <;> rfl
    · rfl

end DedupCache

end LinkExtender
