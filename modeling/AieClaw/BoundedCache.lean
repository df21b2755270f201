import AieClaw.OrderedMap

/-!
# Bounded caches

A cache keeps results under keys and forgets all of them when it grows past its
limit. Whatever it holds was stored, so what is true of every stored result is
true of every result that it gives.
-/

namespace BoundedCache

universe u v

variable {Key : Type u} {Value : Type v} [DecidableEq Key]

/-- Keep a result; a cache that grows past its limit keeps only the last one. -/
def store (limit : ℕ) (cache : OrderedMap Key Value) (key : Key) (value : Value) :
    OrderedMap Key Value :=
  let grown := cache.set key value
  if limit < grown.entries.length then OrderedMap.empty.set key value else grown

/-- Every kept result stands in a relation to its key. -/
def Holds (origin : Key → Value → Prop) (cache : OrderedMap Key Value) : Prop :=
  ∀ key value, cache.get? key = some value → origin key value

variable {cache : OrderedMap Key Value}

theorem holds_empty (origin : Key → Value → Prop) : Holds origin OrderedMap.empty := by
  intro key value found
  exact absurd found (by simp)

theorem Holds.set {origin : Key → Value → Prop}
    (holds : Holds origin cache) {key : Key} {value : Value} (stored : origin key value) :
    Holds origin (cache.set key value) := by
  intro other found isFound
  rw [OrderedMap.get?_set] at isFound
  split at isFound
  · rename_i same
    rw [same, ← Option.some_inj.mp isFound]
    exact stored
  · exact holds other found isFound

theorem Holds.store {origin : Key → Value → Prop}
    (holds : Holds origin cache) (limit : ℕ) {key : Key} {value : Value}
    (stored : origin key value) : Holds origin (store limit cache key value) := by
  unfold BoundedCache.store
  dsimp only
  split
  · exact (holds_empty origin).set stored
  · exact holds.set stored

theorem Holds.mono {origin wider : Key → Value → Prop}
    (holds : Holds origin cache) (implies : ∀ key value, origin key value → wider key value) :
    Holds wider cache :=
  fun key value found => implies key value (holds key value found)

end BoundedCache
