import TensorGraph.Proofs.Workspace.Uncached
import Mathlib.Data.Finset.Card
import Mathlib.Data.Finset.Dedup
import Mathlib.Data.List.Dedup

/-! # Which shapes are cached

The cache holds the digests that were used last, as many as fit. So a shape has to be computed
exactly if its digest was never used, or if too many others were used after its last use. The more
the cache holds, the less has to be computed.
-/

namespace TensorGraph

/-- The digests of the past, each of them once, in the order of their last uses from the latest. -/
def recency (past : List Digest) : List Digest := past.dedup.reverse

/-- A cache for so many shapes has none for the digest: it was not used in the past, or so many
others were used after its last use. -/
def Misses (capacity : Nat) (past : List Digest) (key : Digest) : Prop :=
  key ∉ past ∨ ∃ older newer, past = older ++ key :: newer ∧ key ∉ newer ∧
    capacity ≤ newer.toFinset.card

section Recency

variable {past older newer : List Digest} {key : Digest} {capacity : Nat}

theorem dedup_concat (past : List Digest) (key : Digest) :
    (past ++ [key]).dedup = past.dedup.filter (· ≠ key) ++ [key] := by
  induction past with
  | nil => rfl
  | cons first past ih =>
      by_cases hrepeated : first ∈ past
      · rw [List.cons_append, List.dedup_cons_of_mem (List.mem_append_left _ hrepeated),
          List.dedup_cons_of_mem hrepeated, ih]
      · rw [List.dedup_cons_of_notMem hrepeated, List.cons_append]
        by_cases hkey : first = key
        · rw [hkey, List.dedup_cons_of_mem (List.mem_append_right _ List.mem_cons_self), ih,
            List.filter_cons_of_neg (by simp)]
        · have hfresh : first ∉ past ++ [key] := by simp [hrepeated, hkey]
          rw [List.dedup_cons_of_notMem hfresh, ih, List.filter_cons_of_pos (by simpa using hkey),
            List.cons_append]

/-- A use makes the digest the latest one. -/
theorem recency_concat (past : List Digest) (key : Digest) :
    recency (past ++ [key]) = key :: (recency past).filter (· ≠ key) := by
  rw [recency, dedup_concat, List.reverse_append, recency, List.filter_reverse]
  rfl

theorem nodup_recency (past : List Digest) : (recency past).Nodup :=
  List.nodup_reverse.mpr past.nodup_dedup

theorem mem_recency : key ∈ recency past ↔ key ∈ past := by
  rw [recency, List.mem_reverse, List.mem_dedup]

/-- Only what was used after its last use precedes a digest. -/
theorem exists_recency_eq (older : List Digest) (hlast : key ∉ newer) :
    ∃ rest, recency (older ++ key :: newer) = recency newer ++ key :: rest := by
  obtain ⟨front, hfront⟩ := List.suffix_union_right older (key :: newer).dedup
  rw [← List.dedup_append, List.dedup_cons_of_notMem hlast] at hfront
  refine ⟨front.reverse, ?_⟩
  rw [recency, ← hfront, recency]
  simp

theorem idxOf_recency (older : List Digest) (hlast : key ∉ newer) :
    (recency (older ++ key :: newer)).idxOf key = newer.toFinset.card := by
  obtain ⟨rest, hrecency⟩ := exists_recency_eq older hlast
  rw [hrecency, List.idxOf_append_of_notMem (mt mem_recency.mp hlast), List.idxOf_cons_self,
    Nat.add_zero, recency, List.length_reverse, List.card_toFinset]

/-- A digest that was used has a last use. -/
theorem exists_last_use (hused : key ∈ past) :
    ∃ older newer, past = older ++ key :: newer ∧ key ∉ newer := by
  obtain ⟨front, rest, hpast, hfirst⟩ := List.eq_append_cons_of_mem (List.mem_reverse.mpr hused)
  refine ⟨rest.reverse, front.reverse, ?_, by simpa using hfirst⟩
  rw [← List.reverse_reverse past, hpast]
  simp

/-- The digests that are missed are those that are not among the latest. -/
theorem notMem_take_recency_iff :
    key ∉ (recency past).take capacity ↔ Misses capacity past key := by
  constructor
  · intro hmissing
    by_cases hused : key ∈ past
    · obtain ⟨older, newer, rfl, hlast⟩ := exists_last_use hused
      rw [List.mem_take_iff_idxOf_lt (mem_recency.mpr hused), idxOf_recency older hlast,
        Nat.not_lt] at hmissing
      exact Or.inr ⟨older, newer, rfl, hlast, hmissing⟩
    · exact Or.inl hused
  · rintro (hunused | ⟨older, newer, rfl, hlast, hmany⟩) hmem
    · exact hunused (mem_recency.mp (List.mem_of_mem_take hmem))
    · rw [List.mem_take_iff_idxOf_lt (List.mem_of_mem_take hmem), idxOf_recency older hlast] at hmem
      exact absurd hmem (Nat.not_lt.mpr hmany)

/-- A larger cache misses only what a smaller one misses. -/
theorem Misses.anti {larger : Nat} (hle : capacity ≤ larger) (hmisses : Misses larger past key) :
    Misses capacity past key :=
  hmisses.imp_right fun ⟨older, newer, hpast, hlast, hmany⟩ =>
    ⟨older, newer, hpast, hlast, hle.trans hmany⟩

/-- If all digests of the past fit, only what was not used is missed. -/
theorem misses_iff_notMem (hfew : past.toFinset.card ≤ capacity) :
    Misses capacity past key ↔ key ∉ past := by
  refine ⟨?_, Or.inl⟩
  rintro (hunused | ⟨older, newer, rfl, hlast, hmany⟩)
  · exact hunused
  · -- the digest itself and what was used after it are of the past
    have hsubset : insert key newer.toFinset ⊆ (older ++ key :: newer).toFinset := by
      intro other hother
      simp only [Finset.mem_insert, List.mem_toFinset, List.mem_append, List.mem_cons] at hother ⊢
      exact Or.inr hother
    have hcard := Finset.card_le_card hsubset
    rw [Finset.card_insert_of_notMem (by simpa using hlast)] at hcard
    omega

end Recency

/-- A digest that was looked up in the cache, and whether its shape was computed for that. -/
structure Lookup where
  digest : Digest
  evaluated : Bool
  deriving DecidableEq

namespace ShapeCache

/-- Looks up one demand after the other. -/
def lookups : ShapeCache → List ShapeDemand → List Lookup
  | _, [] => []
  | cache, demand :: demands =>
    let resolution := cache.resolve demand.digest fun _ => demand.result
    ⟨demand.digest, resolution.evaluated⟩ :: resolution.cache.lookups demands

/-- The cache has the capacity, and shapes for the digests used last, as many as fit. -/
structure HoldsLatest (cache : ShapeCache) (capacity : Nat) (past : List Digest) : Prop where
  bound : cache.capacity = capacity
  keys : cache.entries.map Prod.fst = (recency past).take capacity

/-- To keep the latest and drop one of them is to drop it and keep the latest. -/
theorem take_filter_take {latest : List Digest} (hnodup : latest.Nodup) (key : Digest)
    (count : Nat) :
    ((latest.take (count + 1)).filter (· ≠ key)).take count =
      (latest.filter (· ≠ key)).take count := by
  induction latest generalizing count with
  | nil => rfl
  | cons first latest ih =>
      obtain ⟨hfirst, hrest⟩ := List.nodup_cons.mp hnodup
      rw [List.take_succ_cons]
      by_cases hkey : first = key
      · have hothers : ∀ other ∈ latest, decide (other ≠ key) = true := by
          intro other hother
          exact decide_eq_true fun hsame => hfirst (hkey ▸ hsame ▸ hother)
        rw [List.filter_cons_of_neg (by simpa using hkey),
          List.filter_cons_of_neg (by simpa using hkey), List.filter_eq_self.mpr hothers,
          List.filter_eq_self.mpr fun other hother => hothers other (List.mem_of_mem_take hother),
          List.take_take, Nat.min_self]
      · rw [List.filter_cons_of_pos (by simpa using hkey),
          List.filter_cons_of_pos (by simpa using hkey)]
        cases count with
        | zero => rfl
        | succ count => rw [List.take_succ_cons, List.take_succ_cons, ih hrest]

namespace HoldsLatest

variable {cache : ShapeCache} {capacity : Nat} {past : List Digest}

theorem empty (capacity : Nat) : HoldsLatest { capacity } capacity [] := ⟨rfl, by simp [recency]⟩

theorem store (hcache : cache.HoldsLatest capacity past) (key : Digest) (shape : Shape) :
    (cache.store key shape).HoldsLatest capacity (past ++ [key]) where
  bound := hcache.bound
  keys := by
    have hkept : (cache.entries.filter (·.1 ≠ key)).map Prod.fst =
        ((recency past).take capacity).filter (· ≠ key) := by
      rw [← hcache.keys, List.filter_map]
      rfl
    rw [ShapeCache.store, hcache.bound, List.map_take, List.map_cons, hkept, recency_concat]
    cases capacity with
    | zero => rfl
    | succ count =>
        rw [List.take_succ_cons, List.take_succ_cons,
          take_filter_take (nodup_recency past) key count]

theorem find?_eq_none_iff (hcache : cache.HoldsLatest capacity past) (key : Digest) :
    cache.find? key = none ↔ Misses capacity past key := by
  rw [← notMem_take_recency_iff, ← hcache.keys, find?, List.lookup_eq_none_iff]
  simp only [List.mem_map, not_exists, not_and, bne_iff_ne]
  exact ⟨fun hall entry hentry hsame => hall entry hentry hsame.symm,
    fun hall entry hentry hsame => hall entry hentry hsame.symm⟩

/-- What is looked up is computed exactly if it is missed, and it is the latest afterwards. -/
theorem resolve (hcache : cache.HoldsLatest capacity past) (key : Digest)
    (compute : Unit → Except Fault Shape) {shape : Shape} (hcompute : compute () = .ok shape) :
    ((cache.resolve key compute).evaluated = true ↔ Misses capacity past key) ∧
      (cache.resolve key compute).cache.HoldsLatest capacity (past ++ [key]) := by
  constructor
  · rw [evaluated_resolve, Option.isNone_iff_eq_none, hcache.find?_eq_none_iff]
  · rw [ShapeCache.resolve]
    cases cache.find? key with
    | some found => exact hcache.store key found
    | none =>
        rw [hcompute]
        exact hcache.store key shape

end HoldsLatest

section Lookups

variable {cache : ShapeCache} {capacity : Nat} {past : List Digest} {demands : List ShapeDemand}

theorem digests_lookups (cache : ShapeCache) (demands : List ShapeDemand) :
    (cache.lookups demands).map Lookup.digest = demands.map ShapeDemand.digest := by
  induction demands generalizing cache with
  | nil => rfl
  | cons demand demands ih =>
      rw [lookups, List.map_cons, List.map_cons, ih]

/-- In a sequence of demands those are computed that the digests before them miss. -/
theorem evaluated_iff_misses (hcache : cache.HoldsLatest capacity past)
    (hanswers : ∀ demand ∈ demands, ∃ shape, demand.result = .ok shape)
    {front rest : List Lookup} {lookup : Lookup}
    (hlookups : cache.lookups demands = front ++ lookup :: rest) :
    lookup.evaluated = true ↔ Misses capacity (past ++ front.map Lookup.digest) lookup.digest := by
  induction demands generalizing cache past front with
  | nil => simp [lookups] at hlookups
  | cons demand demands ih =>
      obtain ⟨⟨shape, hshape⟩, hothers⟩ := List.forall_mem_cons.mp hanswers
      obtain ⟨hevaluated, hnext⟩ := hcache.resolve demand.digest (fun _ => demand.result) hshape
      rw [lookups] at hlookups
      cases front with
      | nil =>
          obtain ⟨rfl, -⟩ := List.cons.inj hlookups
          simpa using hevaluated
      | cons first front =>
          obtain ⟨rfl, hlater⟩ := List.cons.inj hlookups
          have hlater := ih hnext hothers hlater
          rw [List.append_assoc] at hlater
          exact hlater

/-- The same demands are computed by a larger cache only if they are computed by a smaller one. -/
theorem evaluated_lookups_of_le {larger : ShapeCache} {size : Nat}
    (hcache : cache.HoldsLatest capacity past) (hlarger : larger.HoldsLatest size past)
    (hle : capacity ≤ size)
    (hanswers : ∀ demand ∈ demands, ∃ shape, demand.result = .ok shape) :
    List.Forall₂ (fun one other => one.digest = other.digest ∧
        (one.evaluated = true → other.evaluated = true))
      (larger.lookups demands) (cache.lookups demands) := by
  induction demands generalizing cache larger past with
  | nil => exact .nil
  | cons demand demands ih =>
      obtain ⟨⟨shape, hshape⟩, hothers⟩ := List.forall_mem_cons.mp hanswers
      obtain ⟨hevaluated, hnext⟩ := hcache.resolve demand.digest (fun _ => demand.result) hshape
      obtain ⟨hevaluated', hnext'⟩ := hlarger.resolve demand.digest (fun _ => demand.result) hshape
      rw [lookups, lookups]
      refine .cons ⟨rfl, fun hcomputed => ?_⟩ (ih hnext hnext' hothers)
      exact hevaluated.mpr ((hevaluated'.mp hcomputed).anti hle)

end Lookups

/-- If exactly the first lookup of every digest is evaluated, each digest is evaluated once. -/
theorem count_evaluated {lookups : List Lookup}
    (hfirst : ∀ front lookup rest, lookups = front ++ lookup :: rest →
      (lookup.evaluated = true ↔ lookup.digest ∉ front.map Lookup.digest))
    {digest : Digest} (hdigest : digest ∈ lookups.map Lookup.digest) :
    lookups.count ⟨digest, true⟩ = 1 := by
  induction lookups using List.reverseRecOn with
  | nil => cases hdigest
  | append_singleton earlier last ih =>
      have hearlier : ∀ front lookup rest, earlier = front ++ lookup :: rest →
          (lookup.evaluated = true ↔ lookup.digest ∉ front.map Lookup.digest) := by
        rintro front lookup rest rfl
        exact hfirst front lookup (rest ++ [last]) (by simp)
      have hlast := hfirst earlier last [] rfl
      rw [List.count_append, List.count_singleton]
      by_cases hused : digest ∈ earlier.map Lookup.digest
      · have hother : last ≠ ⟨digest, true⟩ := by
          rintro rfl
          exact hlast.mp rfl hused
        rw [ih hearlier hused, beq_eq_false_iff_ne.mpr hother]
        rfl
      · -- so the digest is that of the last lookup
        obtain rfl : digest = last.digest := by simpa [hused] using hdigest
        have hnone : ⟨last.digest, true⟩ ∉ earlier := fun hmem =>
          hused (List.mem_map.mpr ⟨_, hmem, rfl⟩)
        have hsame : last = ⟨last.digest, true⟩ := by
          rw [← hlast.mpr hused]
        rw [List.count_eq_zero_of_not_mem hnone, ← hsame, beq_self_eq_true]
        rfl

end ShapeCache

end TensorGraph
