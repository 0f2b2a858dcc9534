import TensorGraph.Node

/-!
# The shape cache

A bounded map from digests to computed shapes. The entries stand in the order of
their last use, the latest first; a new entry beyond the capacity drops the last.
-/

namespace TensorGraph

/-- The least recently used entry is the last one. -/
structure ShapeCache where
  capacity : Nat
  entries : List (Digest × Shape) := []

/-- The answer to a request for a shape, with the cache after it. -/
structure ShapeCache.Resolution where
  outcome : Except Fault Shape
  /-- The shape was not found and had to be computed. -/
  evaluated : Bool
  cache : ShapeCache

namespace ShapeCache

/-- The capacity in the absence of any setting. -/
def defaultCapacity : Nat := 12288

/-- The empty cache for so many entries. All of them are reserved at once, of which the machine
sets the limit. -/
def ofCapacity (reservable capacity : Nat) : Except Fault ShapeCache :=
  if capacity ≤ reservable then .ok { capacity } else .error (.violation .cacheCapacity)

def size (cache : ShapeCache) : Nat := cache.entries.length

def find? (cache : ShapeCache) (key : Digest) : Option Shape := cache.entries.lookup key

/-- Makes `key` the latest entry and drops what exceeds the capacity. -/
def store (cache : ShapeCache) (key : Digest) (shape : Shape) : ShapeCache :=
  { cache with
    entries := ((key, shape) :: cache.entries.filter (·.1 ≠ key)).take cache.capacity }

theorem find?_store_self (cache : ShapeCache) (key : Digest) (shape : Shape)
    (positive : 0 < cache.capacity) : (cache.store key shape).find? key = some shape := by
  obtain ⟨count, equal⟩ := Nat.exists_eq_succ_of_ne_zero (Nat.ne_of_gt positive)
  simp [find?, store, equal]

theorem size_store_le (cache : ShapeCache) (key : Digest) (shape : Shape) :
    (cache.store key shape).size ≤ cache.capacity := by
  simp only [size, store, List.length_take]
  omega

/-- Answers from the cache, or else computes the shape and stores it. A failed computation
stores nothing. -/
def resolve (cache : ShapeCache) (key : Digest) (compute : Unit → Except Fault Shape) :
    Resolution :=
  match cache.find? key with
  | some shape => ⟨.ok shape, false, cache.store key shape⟩
  | none =>
    match compute () with
    | .ok shape => ⟨.ok shape, true, cache.store key shape⟩
    | .error fault => ⟨.error fault, true, cache⟩

def clear (cache : ShapeCache) : ShapeCache := { cache with entries := [] }

end ShapeCache

end TensorGraph
