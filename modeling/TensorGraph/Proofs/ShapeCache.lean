import TensorGraph.Proofs.ListRelations
import TensorGraph.ShapeCache

/-! # Entries of the shape cache

Each digest has at most one entry, and there are no more entries than the
capacity allows. What is found in the cache was stored there, and finding it again
changes nothing but the order in which entries are dropped.
-/

namespace TensorGraph.ShapeCache

open ListRelations

/-- Every digest has at most one entry, and the entries fit into the capacity. -/
structure WellFormed (cache : ShapeCache) : Prop where
  keys : (cache.entries.map Prod.fst).Nodup
  bounded : cache.entries.length ≤ cache.capacity

/-- Moving the entry of a digest to the front reorders the entries. -/
theorem perm_cons_filter {entries : List (Digest × Shape)} {key : Digest} {shape : Shape}
    (hkeys : (entries.map Prod.fst).Nodup) (hmem : (key, shape) ∈ entries) :
    ((key, shape) :: entries.filter (·.1 ≠ key)).Perm entries := by
  obtain ⟨front, rest, rfl, hothers⟩ := exists_around hkeys hmem
  have hkept : (front ++ (key, shape) :: rest).filter (·.1 ≠ key) = front ++ rest := by
    rw [List.filter_append, List.filter_cons_of_neg (by simp), ← List.filter_append]
    exact List.filter_eq_self.mpr fun entry hentry => decide_eq_true (hothers entry hentry)
  rw [hkept]
  exact List.perm_middle.symm

variable {cache : ShapeCache} {key : Digest} {shape : Shape}

theorem mem_of_find? (hfind : cache.find? key = some shape) : (key, shape) ∈ cache.entries :=
  mem_of_lookup hfind

theorem eq_of_find?_store {found : Shape}
    (hfind : (cache.store key shape).find? key = some found) : found = shape := by
  by_cases hpositive : 0 < cache.capacity
  · rw [find?_store_self cache key shape hpositive] at hfind
    exact (Option.some.inj hfind).symm
  · rw [find?, store, Nat.eq_zero_of_not_pos hpositive, List.take_zero] at hfind
    cases hfind

/-- What the cache holds after storing was stored just then or before. -/
theorem eq_or_mem_of_mem_store {entry : Digest × Shape}
    (hmem : entry ∈ (cache.store key shape).entries) :
    entry = (key, shape) ∨ entry ∈ cache.entries :=
  (List.mem_cons.mp (List.mem_of_mem_take hmem)).imp_right fun hkept =>
    (List.mem_filter.mp hkept).1

/-- A shape is computed exactly if none is found, whatever the computation would give. -/
theorem evaluated_resolve (cache : ShapeCache) (key : Digest)
    (compute : Unit → Except Fault Shape) :
    (cache.resolve key compute).evaluated = (cache.find? key).isNone := by
  rw [resolve]
  cases cache.find? key with
  | some found => rfl
  | none => cases compute () <;> rfl

/-- What the cache holds after it has answered was stored before or computed for the answer. -/
theorem mem_of_mem_resolve {compute : Unit → Except Fault Shape} {entry : Digest × Shape}
    (hmem : entry ∈ (cache.resolve key compute).cache.entries) :
    entry ∈ cache.entries ∨ entry.1 = key ∧ compute () = .ok entry.2 := by
  rw [resolve] at hmem
  cases hfind : cache.find? key with
  | some found =>
      rw [hfind] at hmem
      rcases eq_or_mem_of_mem_store hmem with rfl | hmem
      · exact Or.inl (mem_of_find? hfind)
      · exact Or.inl hmem
  | none =>
      rw [hfind] at hmem
      cases hcompute : compute () with
      | ok found =>
          rw [hcompute] at hmem
          rcases eq_or_mem_of_mem_store hmem with rfl | hmem
          · exact Or.inr ⟨rfl, rfl⟩
          · exact Or.inl hmem
      | error fault =>
          rw [hcompute] at hmem
          exact Or.inl hmem

namespace WellFormed

theorem empty (capacity : Nat) : WellFormed { capacity } := ⟨List.nodup_nil, Nat.zero_le _⟩

theorem store (hcache : cache.WellFormed) (key : Digest) (shape : Shape) :
    (cache.store key shape).WellFormed where
  keys := by
    refine ((List.take_sublist _ _).map Prod.fst).nodup ?_
    rw [List.map_cons, List.nodup_cons]
    refine ⟨fun hmem => ?_, (List.filter_sublist.map Prod.fst).nodup hcache.keys⟩
    obtain ⟨entry, hentry, heq⟩ := List.mem_map.mp hmem
    exact of_decide_eq_true (List.mem_filter.mp hentry).2 heq
  bounded := cache.size_store_le key shape

theorem resolve (hcache : cache.WellFormed) (key : Digest)
    (compute : Unit → Except Fault Shape) : (cache.resolve key compute).cache.WellFormed := by
  rw [ShapeCache.resolve]
  cases cache.find? key with
  | some found => exact hcache.store key found
  | none =>
      cases compute () with
      | ok found => exact hcache.store key found
      | error fault => exact hcache

/-- Storing what is cached already only makes it the latest entry. -/
theorem perm_store (hcache : cache.WellFormed) (hfind : cache.find? key = some shape) :
    (cache.store key shape).entries.Perm cache.entries := by
  have hperm := perm_cons_filter hcache.keys (mem_of_find? hfind)
  have hfits := Nat.le_trans (Nat.le_of_eq hperm.length_eq) hcache.bounded
  rw [ShapeCache.store, List.take_of_length_le hfits]
  exact hperm

/-- The order of the entries does not matter to what is found. -/
theorem find?_eq_of_perm {other : ShapeCache} (hcache : cache.WellFormed)
    (hperm : other.entries.Perm cache.entries) (key : Digest) :
    other.find? key = cache.find? key := by
  have hkeys : (other.entries.map Prod.fst).Nodup :=
    (hperm.map Prod.fst).nodup_iff.mpr hcache.keys
  refine Option.ext fun shape => ⟨fun hfind => ?_, fun hfind => ?_⟩
  · exact lookup_of_mem hcache.keys (hperm.mem_iff.mp (mem_of_find? hfind))
  · exact lookup_of_mem hkeys (hperm.mem_iff.mpr (mem_of_find? hfind))

end WellFormed

end TensorGraph.ShapeCache
