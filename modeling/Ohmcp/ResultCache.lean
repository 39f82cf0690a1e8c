import Ohmcp.Frame
import Mathlib.Data.List.AList
import Mathlib.Data.List.MinMax

/-! The content-addressed result cache: a hash map with a time to live and a sampled
least-recently-used eviction. Instants are nanoseconds; the order in which the hash map enumerates
its keys is a parameter of `put`. -/

namespace Ohmcp

structure CacheKey where
  digest : Bytes32
  deriving DecidableEq

namespace CacheKey

def asBytes (key : CacheKey) : Bytes := key.digest.bytes

def fromSlice (slice : Bytes) : Option CacheKey :=
  if h : slice.length = 32 then some ⟨⟨slice, h⟩⟩ else none

@[simp] theorem fromSlice_asBytes (key : CacheKey) : fromSlice key.asBytes = some key :=
  dif_pos key.digest.length_eq

end CacheKey

structure Entry where
  value : Bytes
  inserted : Nat
  lastUsed : Nat
  deriving DecidableEq

structure ResultCache where
  map : AList fun _ : CacheKey => Entry
  capacity : Nat
  ttl : Nat
  hits : Nat
  misses : Nat

namespace ResultCache

def new (capacity ttl : Nat) : ResultCache := ⟨∅, capacity, ttl, 0, 0⟩

def get (cache : ResultCache) (now : Nat) (key : CacheKey) : Option Bytes × ResultCache :=
  match cache.map.lookup key with
  | some e =>
      if now - e.inserted ≤ cache.ttl then
        (some e.value, { cache with
          map := cache.map.insert key { e with lastUsed := now }
          hits := cache.hits + 1 })
      else (none, { cache with map := cache.map.erase key, misses := cache.misses + 1 })
  | none => (none, { cache with misses := cache.misses + 1 })

/-- Of the first eight keys enumerated, the one whose last use is longest ago. -/
def lruSample (cache : ResultCache) (order : List CacheKey) : Option CacheKey :=
  let sample := (order.take 8).filterMap fun key => (cache.map.lookup key).map fun e => (key, e)
  (sample.argmin fun pair => pair.2.lastUsed).map Prod.fst

def evictLru (cache : ResultCache) (order : List CacheKey) : ResultCache :=
  match cache.lruSample order with
  | some key => { cache with map := cache.map.erase key }
  | none => cache

def put (cache : ResultCache) (now : Nat) (order : List CacheKey) (key : CacheKey)
    (value : Bytes) : ResultCache :=
  let cache :=
    if cache.capacity ≤ cache.map.keys.length ∧ key ∉ cache.map then cache.evictLru order else cache
  { cache with map := cache.map.insert key ⟨value, now, now⟩ }

def stats (cache : ResultCache) : Nat × Nat := (cache.hits, cache.misses)

/-! ### What is stored under a key -/

/-- The value stored under a key and when it was put there. -/
def stored (cache : ResultCache) (key : CacheKey) : Option (Bytes × Nat) :=
  (cache.map.lookup key).map fun e => (e.value, e.inserted)

/-- The value an entry still within its time to live gives. -/
def live (cache : ResultCache) (now : Nat) (key : CacheKey) : Option Bytes :=
  (cache.stored key).bind fun entry => if now - entry.2 ≤ cache.ttl then some entry.1 else none

variable {cache : ResultCache} {now : Nat} {key other : CacheKey} {value : Bytes}

theorem live_eq_some {inserted : Nat} (hstored : cache.stored key = some (value, inserted))
    (hfresh : now - inserted ≤ cache.ttl) : cache.live now key = some value := by
  rw [live, hstored]
  exact if_pos hfresh

theorem exists_of_live (h : cache.live now key = some value) :
    ∃ inserted, cache.stored key = some (value, inserted) ∧ now - inserted ≤ cache.ttl := by
  unfold live at h
  cases hstored : cache.stored key with
  | none =>
      rw [hstored] at h
      cases h
  | some entry =>
      rw [hstored, Option.bind_some] at h
      split_ifs at h with hfresh
      cases h
      exact ⟨entry.2, rfl, hfresh⟩

theorem get_fst : (cache.get now key).1 = cache.live now key := by
  unfold get live stored
  cases cache.map.lookup key with
  | none => rfl
  | some e =>
      simp only [Option.map_some, Option.bind_some]
      split_ifs <;> rfl

@[simp] theorem get_ttl : (cache.get now key).2.ttl = cache.ttl := by
  unfold get
  split
  · split_ifs <;> rfl
  · rfl

@[simp] theorem get_capacity : (cache.get now key).2.capacity = cache.capacity := by
  unfold get
  split
  · split_ifs <;> rfl
  · rfl

theorem get_stored_of_ne (h : other ≠ key) :
    (cache.get now key).2.stored other = cache.stored other := by
  unfold get stored
  split
  · split_ifs
    · rw [AList.lookup_insert_ne h]
    · rw [AList.lookup_erase_ne h]
  · rfl

/-- A lookup keeps an entry that is within its time to live. -/
theorem get_stored_of_live (h : cache.live now key = some value) :
    (cache.get now key).2.stored other = cache.stored other := by
  obtain ⟨inserted, hstored, hfresh⟩ := exists_of_live h
  by_cases hother : other = key
  · subst hother
    unfold stored at hstored
    unfold get stored
    cases hlookup : cache.map.lookup other with
    | none =>
        rw [hlookup] at hstored
        cases hstored
    | some e =>
        rw [hlookup] at hstored
        cases hstored
        simp only [if_pos hfresh, AList.lookup_insert, Option.map_some]
  · exact get_stored_of_ne hother

/-- A lookup that finds nothing leaves nothing under the key. -/
theorem get_stored_of_miss (h : cache.live now key = none) :
    (cache.get now key).2.stored key = none := by
  unfold get stored
  cases hlookup : cache.map.lookup key with
  | none => simp only [hlookup, Option.map_none]
  | some e =>
      have hexpired : ¬ now - e.inserted ≤ cache.ttl := by
        intro hfresh
        rw [live_eq_some (by rw [stored, hlookup, Option.map_some]) hfresh] at h
        cases h
      simp only [if_neg hexpired, AList.lookup_erase, Option.map_none]

/-- The key a `put` evicts. -/
def evicted (cache : ResultCache) (order : List CacheKey) (key : CacheKey) : Option CacheKey :=
  if cache.capacity ≤ cache.map.keys.length ∧ key ∉ cache.map then cache.lruSample order else none

variable {order : List CacheKey}

theorem put_map : (cache.put now order key value).map =
    (match cache.evicted order key with
      | some victim => cache.map.erase victim
      | none => cache.map).insert key ⟨value, now, now⟩ := by
  unfold put evicted
  by_cases hfull : cache.capacity ≤ cache.map.keys.length ∧ key ∉ cache.map
  · simp only [if_pos hfull, evictLru]
    split <;> rfl
  · simp only [if_neg hfull]

@[simp] theorem put_ttl : (cache.put now order key value).ttl = cache.ttl := by
  unfold put evictLru
  dsimp only
  split_ifs
  · split <;> rfl
  · rfl

@[simp] theorem put_capacity : (cache.put now order key value).capacity = cache.capacity := by
  unfold put evictLru
  dsimp only
  split_ifs
  · split <;> rfl
  · rfl

theorem put_stored_self : (cache.put now order key value).stored key = some (value, now) := by
  rw [stored, put_map, AList.lookup_insert, Option.map_some]

theorem put_stored_of_ne (h : other ≠ key) (hkept : cache.evicted order key ≠ some other) :
    (cache.put now order key value).stored other = cache.stored other := by
  unfold stored
  rw [put_map, AList.lookup_insert_ne h]
  cases hvictim : cache.evicted order key with
  | none => rfl
  | some victim =>
      rw [hvictim] at hkept
      simp only [AList.lookup_erase_ne (fun heq => hkept (congrArg some heq.symm) : other ≠ victim)]

/-- A `put` takes away one other entry at most. -/
theorem put_stored_eq_some {entry : Bytes × Nat} (h : other ≠ key)
    (hput : (cache.put now order key value).stored other = some entry) :
    cache.stored other = some entry := by
  unfold stored at hput ⊢
  rw [put_map, AList.lookup_insert_ne h] at hput
  cases hvictim : cache.evicted order key with
  | none => rwa [hvictim] at hput
  | some victim =>
      simp only [hvictim] at hput
      by_cases heq : other = victim
      · subst heq
        rw [AList.lookup_erase] at hput
        cases hput
      · rwa [AList.lookup_erase_ne heq] at hput

theorem evicted_of_room (h : cache.map.keys.length < cache.capacity) :
    cache.evicted order key = none :=
  if_neg fun hfull => Nat.not_le.mpr h hfull.1

end ResultCache

end Ohmcp
