import Ohmcp.ResultCache
import Ohmcp.Transition

/-! Whole runs of the result cache, against the history of what was put, found, evicted and expired:
the cache is a map of bounded size whose entries go when they are too old, or when they are the least
recently used of a sample. -/

open Transition

namespace Ohmcp

namespace ResultCache

variable {cache : ResultCache} {now : Nat} {key other victim : CacheKey} {e : Entry}
  {order : List CacheKey} {value : Bytes}

/-! ### The equations of a lookup and of the sample -/

theorem get_hit (h : cache.map.lookup key = some e) (hfresh : now - e.inserted ≤ cache.ttl) :
    cache.get now key = (some e.value, { cache with
      map := cache.map.insert key { e with lastUsed := now }
      hits := cache.hits + 1 }) := by
  rw [get, h]
  exact if_pos hfresh

theorem get_expired (h : cache.map.lookup key = some e) (hstale : ¬ now - e.inserted ≤ cache.ttl) :
    cache.get now key =
      (none, { cache with map := cache.map.erase key, misses := cache.misses + 1 }) := by
  rw [get, h]
  exact if_neg hstale

theorem get_absent (h : cache.map.lookup key = none) :
    cache.get now key = (none, { cache with misses := cache.misses + 1 }) := by
  rw [get, h]

/-- The least recently used of a sample. -/
structure Oldest (cache : ResultCache) (sample : List CacheKey) (victim : CacheKey) (e : Entry) :
    Prop where
  lookup_eq : cache.map.lookup victim = some e
  mem_sample : victim ∈ sample
  lastUsed_le : ∀ other ∈ sample, ∀ e', cache.map.lookup other = some e' → e.lastUsed ≤ e'.lastUsed

theorem oldest_of_lruSample (h : cache.lruSample order = some victim) :
    ∃ e, Oldest cache (order.take 8) victim e := by
  obtain ⟨⟨k, e⟩, hargmin, rfl⟩ := Option.map_eq_some_iff.mp h
  obtain ⟨key, hkey, hentry⟩ := List.mem_filterMap.mp (List.argmin_mem hargmin)
  obtain ⟨e', hlookup, heq⟩ := Option.map_eq_some_iff.mp hentry
  cases heq
  refine ⟨e, hlookup, hkey, fun other hother e' hlookup' => ?_⟩
  have hmem : (other, e') ∈ (order.take 8).filterMap
      fun key => (cache.map.lookup key).map fun e => (key, e) := by
    refine List.mem_filterMap.mpr ⟨other, hother, ?_⟩
    rw [hlookup', Option.map_some]
  exact List.le_of_mem_argmin (f := fun pair : CacheKey × Entry => pair.2.lastUsed) hmem hargmin

/-- Where something is stored, the sample is not empty. -/
theorem exists_lruSample (horder : order.Perm cache.map.keys) (hsome : 0 < cache.map.keys.length) :
    ∃ victim, cache.lruSample order = some victim := by
  cases hsample : cache.lruSample order with
  | some victim => exact ⟨victim, rfl⟩
  | none =>
      have hnil := List.argmin_eq_none.mp (Option.map_eq_none_iff.mp hsample)
      cases order with
      | nil =>
          rw [← horder.length_eq] at hsome
          exact absurd hsome (lt_irrefl 0)
      | cons first rest =>
          have hfirst : first ∈ cache.map :=
            AList.mem_keys.mpr (horder.subset List.mem_cons_self)
          obtain ⟨e, hlookup⟩ := Option.isSome_iff_exists.mp (AList.lookup_isSome.mpr hfirst)
          have hnone := List.filterMap_eq_nil_iff.mp hnil first (by simp)
          rw [hlookup] at hnone
          cases hnone

/-- What a `put` evicts, if anything. -/
theorem evicted_cases (h : cache.evicted order key = some victim) :
    cache.capacity ≤ cache.map.keys.length ∧ key ∉ cache.map ∧
      ∃ e, Oldest cache (order.take 8) victim e := by
  unfold evicted at h
  split_ifs at h with hfull
  exact ⟨hfull.1, hfull.2, oldest_of_lruSample h⟩

theorem put_lookup_self :
    (cache.put now order key value).map.lookup key = some ⟨value, now, now⟩ := by
  rw [put_map, AList.lookup_insert]

theorem put_lookup_of_ne (h : other ≠ key) : (cache.put now order key value).map.lookup other =
    if cache.evicted order key = some other then none else cache.map.lookup other := by
  rw [put_map, AList.lookup_insert_ne h]
  cases cache.evicted order key with
  | none => rw [if_neg (Option.some_ne_none _).symm]
  | some victim =>
      by_cases heq : victim = other
      · subst heq
        rw [if_pos rfl]
        exact AList.lookup_erase _ _
      · rw [if_neg fun h => heq (Option.some.inj h)]
        exact AList.lookup_erase_ne (Ne.symm heq)

/-! ### The size -/

theorem length_keys_get_le : (cache.get now key).2.map.keys.length ≤ cache.map.keys.length := by
  cases hlookup : cache.map.lookup key with
  | none => rw [get_absent hlookup]
  | some e =>
      by_cases hfresh : now - e.inserted ≤ cache.ttl
      · have hmem : key ∈ cache.map.keys :=
          AList.mem_keys.mp (AList.lookup_isSome.mp (Option.isSome_of_eq_some hlookup))
        have hpos := List.length_pos_of_mem hmem
        rw [get_hit hlookup hfresh, AList.keys_insert, List.length_cons,
          List.length_erase_of_mem hmem]
        omega
      · rw [get_expired hlookup hfresh, AList.keys_erase]
        exact List.length_erase_le

theorem length_keys_put_le (hcapacity : 1 ≤ cache.capacity) (horder : order.Perm cache.map.keys)
    (hlen : cache.map.keys.length ≤ cache.capacity) :
    (cache.put now order key value).map.keys.length ≤ cache.capacity := by
  rw [put_map, AList.keys_insert, List.length_cons]
  by_cases hmem : key ∈ cache.map
  · have hnone : cache.evicted order key = none := if_neg fun h => h.2 hmem
    have hpos := List.length_pos_of_mem (AList.mem_keys.mp hmem)
    rw [hnone]
    dsimp only
    rw [List.length_erase_of_mem (AList.mem_keys.mp hmem)]
    omega
  · rcases Nat.lt_or_ge cache.map.keys.length cache.capacity with hroom | hfull
    · rw [evicted_of_room hroom]
      dsimp only
      have hle : (cache.map.keys.erase key).length ≤ cache.map.keys.length := List.length_erase_le
      omega
    · obtain ⟨victim, hsample⟩ := exists_lruSample horder (by omega)
      have hvictim : cache.evicted order key = some victim := (if_pos ⟨hfull, hmem⟩).trans hsample
      obtain ⟨_, _, e, holdest⟩ := evicted_cases hvictim
      have hkeys : victim ∈ cache.map.keys := AList.mem_keys.mp
        (AList.lookup_isSome.mp (Option.isSome_of_eq_some holdest.lookup_eq))
      have hpos := List.length_pos_of_mem hkeys
      have hle : ((cache.map.erase victim).keys.erase key).length ≤ cache.map.keys.length - 1 := by
        rw [← List.length_erase_of_mem hkeys, AList.keys_erase]
        exact List.length_erase_le
      rw [hvictim]
      dsimp only
      omega

end ResultCache

namespace CacheHistory

/-! ### Runs and their history -/

inductive Event where
  | put (key : CacheKey) (value : Bytes) (time : Nat)
  | hit (key : CacheKey) (time : Nat)
  | evicted (key : CacheKey)
  | expired (key : CacheKey)
  deriving DecidableEq

namespace Event

/-- What was stored under the key before is no longer. -/
def Ends (key : CacheKey) : Event → Prop
  | .put key' _ _ => key' = key
  | .hit _ _ => False
  | .evicted key' => key' = key
  | .expired key' => key' = key

def UsedAt (key : CacheKey) (time : Nat) : Event → Prop
  | .put key' _ time' => key' = key ∧ time' = time
  | .hit key' time' => key' = key ∧ time' = time
  | .evicted _ => False
  | .expired _ => False

end Event

/-- The last `put` of the key had this value, and the key was neither evicted nor found expired
since. -/
def Standing (history : List Event) (key : CacheKey) (value : Bytes) (time : Nat) : Prop :=
  Since (· = .put key value time) (Event.Ends key) history

/-- The last time the key was put or found. -/
def LastUse (history : List Event) (key : CacheKey) (time : Nat) : Prop :=
  Since (Event.UsedAt key time) (fun event => ∃ later, event.UsedAt key later) history

structure State where
  cache : ResultCache
  /-- What happened, the newest event first. -/
  history : List Event
  clock : Option Nat

inductive Op where
  | get (now : Nat) (key : CacheKey)
  /-- With the order in which the hash map enumerates its keys. -/
  | put (now : Nat) (order : List CacheKey) (key : CacheKey) (value : Bytes)

def Op.now : Op → Nat
  | .get now _ => now
  | .put now _ _ _ => now

def init (capacity ttl : Nat) : State := ⟨.new capacity ttl, [], none⟩

/-- What a lookup finds, as an event; a key that is not stored is none. -/
def looked (cache : ResultCache) (now : Nat) (key : CacheKey) : List Event :=
  match cache.map.lookup key with
  | some e => if now - e.inserted ≤ cache.ttl then [.hit key now] else [.expired key]
  | none => []

def step (s : State) : Op → Option State
  | .get now key =>
      if ∀ last ∈ s.clock, last ≤ now then
        some ⟨(s.cache.get now key).2, looked s.cache now key ++ s.history, some now⟩
      else none
  | .put now order key value =>
      if (∀ last ∈ s.clock, last ≤ now) ∧ order.Perm s.cache.map.keys then
        some ⟨s.cache.put now order key value,
          .put key value now :: (s.cache.evicted order key).toList.map .evicted ++ s.history,
          some now⟩
      else none

/-- No two operations happen at one instant. -/
def Later (s : State) (op : Op) : Prop := ∀ last ∈ s.clock, last < op.now

instance : DecidableRel Later := fun s op =>
  inferInstanceAs (Decidable (∀ last ∈ s.clock, last < op.now))

/-! ### The invariant -/

/-- What is stored is what stands in the history, and was last used when the history says so. -/
structure Tracks (map : AList fun _ : CacheKey => Entry) (history : List Event) : Prop where
  stored_iff : ∀ key value time,
    (∃ e, map.lookup key = some e ∧ e.value = value ∧ e.inserted = time) ↔
      Standing history key value time
  lastUse : ∀ key e, map.lookup key = some e → LastUse history key e.lastUsed

section Tracks

variable {map : AList fun _ : CacheKey => Entry} {history : List Event} {key : CacheKey}

theorem tracks_empty : Tracks ∅ [] := by
  refine ⟨fun key value time => ⟨?_, fun h => absurd h not_since_nil⟩, fun key e h => ?_⟩
  · rintro ⟨e, hlookup, _⟩
    rw [AList.lookup_empty] at hlookup
    cases hlookup
  · rw [AList.lookup_empty] at h
    cases h

/-- A key that is evicted or expires. -/
theorem Tracks.erase (h : Tracks map history) {event : Event}
    (hevent : event = .evicted key ∨ event = .expired key) :
    Tracks (map.erase key) (event :: history) := by
  have hends (other : CacheKey) : event.Ends other ↔ key = other := by
    rcases hevent with rfl | rfl <;> exact Iff.rfl
  have hunused (other : CacheKey) (time : Nat) : ¬ event.UsedAt other time := by
    rcases hevent with rfl | rfl <;> exact id
  have hnoput (other : CacheKey) (value : Bytes) (time : Nat) : event ≠ .put other value time := by
    rcases hevent with rfl | rfl <;> simp
  refine ⟨fun other value time => ?_, fun other e hlookup => ?_⟩
  · rw [Standing, since_cons, hends, or_iff_right (hnoput other value time), ← Standing,
      ← h.stored_iff]
    by_cases heq : key = other
    · subst heq
      rw [AList.lookup_erase]
      simp
    · rw [AList.lookup_erase_ne (Ne.symm heq)]
      simp [heq]
  · have hne : other ≠ key := by
      rintro rfl
      rw [AList.lookup_erase] at hlookup
      cases hlookup
    rw [AList.lookup_erase_ne hne] at hlookup
    refine since_cons.mpr (Or.inr ⟨?_, h.lastUse other e hlookup⟩)
    rintro ⟨time, hused⟩
    exact hunused other time hused

/-- A key that is put or found. -/
theorem Tracks.insert (h : Tracks map history) {event : Event} {e : Entry}
    (hused : event.UsedAt key e.lastUsed)
    (hevent : event = .put key e.value e.inserted ∨ event = .hit key e.lastUsed ∧
      ∃ e', map.lookup key = some e' ∧ e'.value = e.value ∧ e'.inserted = e.inserted) :
    Tracks (map.insert key e) (event :: history) := by
  have hother {other : CacheKey} (hne : other ≠ key) :
      ¬ event.Ends other ∧ (∀ value time, event ≠ .put other value time) ∧
        ∀ time, ¬ event.UsedAt other time := by
    rcases hevent with rfl | ⟨rfl, _⟩
    · exact ⟨Ne.symm hne, fun _ _ heq => hne (Event.put.inj heq).1.symm,
        fun _ hused => hne hused.1.symm⟩
    · exact ⟨id, fun _ _ => by simp, fun _ hused => hne hused.1.symm⟩
  refine ⟨fun other value time => ?_, fun other e' hlookup => ?_⟩
  · by_cases heq : other = key
    · subst heq
      rw [AList.lookup_insert, Standing, since_cons]
      rcases hevent with rfl | ⟨rfl, e', hlookup, hvalue, hinserted⟩
      · simp [Event.Ends]
      · rw [or_iff_right (by simp), ← Standing, ← h.stored_iff, hlookup]
        simp [Event.Ends, hvalue, hinserted]
    · obtain ⟨hends, hput, _⟩ := hother heq
      rw [AList.lookup_insert_ne heq, h.stored_iff, Standing, Standing, since_cons,
        or_iff_right (hput value time), and_iff_right hends]
  · by_cases heq : other = key
    · subst heq
      rw [AList.lookup_insert] at hlookup
      obtain rfl := Option.some.inj hlookup
      exact since_cons.mpr (Or.inl hused)
    · rw [AList.lookup_insert_ne heq] at hlookup
      refine since_cons.mpr (Or.inr ⟨?_, h.lastUse other e' hlookup⟩)
      rintro ⟨time, hused⟩
      exact (hother heq).2.2 time hused

theorem Tracks.get {cache : ResultCache} (h : Tracks cache.map history) (now : Nat)
    (key : CacheKey) : Tracks (cache.get now key).2.map (looked cache now key ++ history) := by
  cases hlookup : cache.map.lookup key with
  | none =>
      rw [ResultCache.get_absent hlookup, looked, hlookup]
      exact h
  | some e =>
      by_cases hfresh : now - e.inserted ≤ cache.ttl
      · rw [ResultCache.get_hit hlookup hfresh, looked, hlookup]
        dsimp only
        rw [if_pos hfresh]
        exact h.insert ⟨rfl, rfl⟩ (Or.inr ⟨rfl, e, hlookup, rfl, rfl⟩)
      · rw [ResultCache.get_expired hlookup hfresh, looked, hlookup]
        dsimp only
        rw [if_neg hfresh]
        exact h.erase (Or.inr rfl)

theorem Tracks.put {cache : ResultCache} (h : Tracks cache.map history) (now : Nat)
    (order : List CacheKey) (key : CacheKey) (value : Bytes) :
    Tracks (cache.put now order key value).map
      (.put key value now :: (cache.evicted order key).toList.map .evicted ++ history) := by
  rw [ResultCache.put_map]
  cases cache.evicted order key with
  | none => exact h.insert ⟨rfl, rfl⟩ (Or.inl rfl)
  | some victim => exact (h.erase (Or.inl rfl)).insert ⟨rfl, rfl⟩ (Or.inl rfl)

end Tracks

structure Inv (capacity ttl : Nat) (s : State) : Prop where
  tracks : Tracks s.cache.map s.history
  length_le : s.cache.map.keys.length ≤ capacity
  capacity_eq : s.cache.capacity = capacity
  ttl_eq : s.cache.ttl = ttl

theorem inv_init (capacity ttl : Nat) : Inv capacity ttl (init capacity ttl) :=
  ⟨tracks_empty, Nat.zero_le _, rfl, rfl⟩

section Steps

variable {capacity ttl : Nat} {s t : State} {op : Op}

theorem step_get {now : Nat} {key : CacheKey} (hstep : step s (.get now key) = some t) :
    t = ⟨(s.cache.get now key).2, looked s.cache now key ++ s.history, some now⟩ := by
  rw [step] at hstep
  split_ifs at hstep
  exact (Option.some.inj hstep).symm

theorem step_put {now : Nat} {order : List CacheKey} {key : CacheKey} {value : Bytes}
    (hstep : step s (.put now order key value) = some t) : order.Perm s.cache.map.keys ∧
      t = ⟨s.cache.put now order key value,
        .put key value now :: (s.cache.evicted order key).toList.map .evicted ++ s.history,
        some now⟩ := by
  rw [step] at hstep
  split_ifs at hstep with h
  exact ⟨h.2, (Option.some.inj hstep).symm⟩

theorem Inv.step (hcapacity : 1 ≤ capacity) (h : Inv capacity ttl s) (hstep : step s op = some t) :
    Inv capacity ttl t := by
  cases op with
  | get now key =>
      obtain rfl := step_get hstep
      exact ⟨h.tracks.get now key, ResultCache.length_keys_get_le.trans h.length_le,
        ResultCache.get_capacity.trans h.capacity_eq, ResultCache.get_ttl.trans h.ttl_eq⟩
  | put now order key value =>
      obtain ⟨horder, rfl⟩ := step_put hstep
      refine ⟨h.tracks.put now order key value, ?_, ResultCache.put_capacity.trans h.capacity_eq,
        ResultCache.put_ttl.trans h.ttl_eq⟩
      obtain rfl := h.capacity_eq
      exact ResultCache.length_keys_put_le hcapacity horder h.length_le

/-- No two keys were last used at one instant, and none after the last operation. -/
structure Spread (s : State) : Prop where
  key_eq : ∀ key key' e e', s.cache.map.lookup key = some e → s.cache.map.lookup key' = some e' →
    e.lastUsed = e'.lastUsed → key = key'
  lastUsed_le : ∀ key e, s.cache.map.lookup key = some e →
    ∃ last ∈ s.clock, e.lastUsed ≤ last

theorem spread_init (capacity ttl : Nat) : Spread (init capacity ttl) := by
  have hnone (key : CacheKey) : (init capacity ttl).cache.map.lookup key = none :=
    AList.lookup_empty key
  refine ⟨fun key _ _ _ h => ?_, fun key _ h => ?_⟩
  · rw [hnone] at h
    cases h
  · rw [hnone] at h
    cases h

/-- Whatever is stored afterwards was stored before or is used now, and only one key is. -/
theorem Spread.of_lookup (h : Spread s) (now : Nat) (hlater : ∀ last ∈ s.clock, last < now)
    (hclock : t.clock = some now) (used : CacheKey)
    (hlookup : ∀ key e, t.cache.map.lookup key = some e →
      s.cache.map.lookup key = some e ∨ key = used ∧ e.lastUsed = now) : Spread t := by
  have hold {key : CacheKey} {e : Entry} (hkey : s.cache.map.lookup key = some e) :
      e.lastUsed < now := by
    obtain ⟨last, hlast, hle⟩ := h.lastUsed_le key e hkey
    exact hle.trans_lt (hlater last hlast)
  refine ⟨fun key key' e e' hkey hkey' heq => ?_, fun key e hkey => ⟨now, hclock, ?_⟩⟩
  · rcases hlookup key e hkey with hkey | ⟨rfl, hnow⟩
    · rcases hlookup key' e' hkey' with hkey' | ⟨rfl, hnow⟩
      · exact h.key_eq key key' e e' hkey hkey' heq
      · exact absurd (heq.trans hnow) (hold hkey).ne
    · rcases hlookup key' e' hkey' with hkey' | ⟨rfl, hnow'⟩
      · exact absurd (heq.symm.trans hnow) (hold hkey').ne
      · rfl
  · rcases hlookup key e hkey with hkey | ⟨rfl, hnow⟩
    · exact (hold hkey).le
    · exact hnow.le

theorem Spread.step (h : Spread s) (hlater : Later s op) (hstep : step s op = some t) :
    Spread t := by
  cases op with
  | get now key =>
      obtain rfl := step_get hstep
      refine h.of_lookup now hlater rfl key fun other e hother => ?_
      cases hlookup : s.cache.map.lookup key with
      | none =>
          rw [ResultCache.get_absent hlookup] at hother
          exact Or.inl hother
      | some found =>
          by_cases heq : other = key
          · subst heq
            by_cases hfresh : now - found.inserted ≤ s.cache.ttl
            · rw [ResultCache.get_hit hlookup hfresh, AList.lookup_insert] at hother
              obtain rfl := Option.some.inj hother
              exact Or.inr ⟨rfl, rfl⟩
            · rw [ResultCache.get_expired hlookup hfresh, AList.lookup_erase] at hother
              cases hother
          · by_cases hfresh : now - found.inserted ≤ s.cache.ttl
            · rw [ResultCache.get_hit hlookup hfresh, AList.lookup_insert_ne heq] at hother
              exact Or.inl hother
            · rw [ResultCache.get_expired hlookup hfresh, AList.lookup_erase_ne heq] at hother
              exact Or.inl hother
  | put now order key value =>
      obtain ⟨_, rfl⟩ := step_put hstep
      refine h.of_lookup now hlater rfl key fun other e hother => ?_
      by_cases heq : other = key
      · subst heq
        rw [ResultCache.put_lookup_self] at hother
        obtain rfl := Option.some.inj hother
        exact Or.inr ⟨rfl, rfl⟩
      · rw [ResultCache.put_lookup_of_ne heq] at hother
        split_ifs at hother
        exact Or.inl hother

end Steps

/-! ### The refinement -/

/-- What is removed by a `put`, given the order in which the entries are enumerated. -/
structure Removes (cache : ResultCache) (order : List CacheKey) (key victim : CacheKey) : Prop where
  full : cache.capacity ≤ cache.map.keys.length
  absent : key ∉ cache.map
  least : ∃ e, cache.map.lookup victim = some e ∧ victim ∈ order.take 8 ∧
    ∀ other ∈ order.take 8, ∀ e', cache.map.lookup other = some e' → e.lastUsed ≤ e'.lastUsed
  /-- With at most eight entries the sample is all of them. -/
  exact_lru : cache.capacity ≤ 8 → ∃ e, cache.map.lookup victim = some e ∧
    ∀ other e', cache.map.lookup other = some e' → e.lastUsed ≤ e'.lastUsed

/-- A cache refines the bounded map that its history describes. -/
structure Refines (capacity : Nat) (s : State) : Prop where
  length_le : s.cache.map.keys.length ≤ capacity
  get_iff : ∀ now key value, (s.cache.get now key).1 = some value ↔
    ∃ time, Standing s.history key value time ∧ now - time ≤ s.cache.ttl
  lastUse : ∀ key e, s.cache.map.lookup key = some e → LastUse s.history key e.lastUsed
  put_removes : ∀ now order key value, order.Perm s.cache.map.keys → ∃ removed : Option CacheKey,
    (∀ other, other ≠ key → (s.cache.put now order key value).map.lookup other =
      if removed = some other then none else s.cache.map.lookup other) ∧
      ∀ victim ∈ removed, Removes s.cache order key victim

/-- The entry whose last use is the most recent stays when another is put. -/
def KeepsRecent (s : State) : Prop :=
  ∀ now order key value recent e, order.Perm s.cache.map.keys →
    s.cache.map.lookup recent = some e →
    (∀ other e', s.cache.map.lookup other = some e' → e'.lastUsed ≤ e.lastUsed) →
    recent ∈ (s.cache.put now order key value).map

theorem live_iff_exists {cache : ResultCache} {now : Nat} {key : CacheKey} {value : Bytes} :
    cache.live now key = some value ↔ ∃ time, (∃ e, cache.map.lookup key = some e ∧
      e.value = value ∧ e.inserted = time) ∧ now - time ≤ cache.ttl := by
  have hstored (time : Nat) : cache.stored key = some (value, time) ↔
      ∃ e, cache.map.lookup key = some e ∧ e.value = value ∧ e.inserted = time := by
    rw [ResultCache.stored, Option.map_eq_some_iff]
    simp only [Prod.mk.injEq]
  simp only [← hstored]
  refine ⟨ResultCache.exists_of_live, ?_⟩
  rintro ⟨_, hentry, hfresh⟩
  exact ResultCache.live_eq_some hentry hfresh

section Sample

variable {cache : ResultCache} {order : List CacheKey} {key victim : CacheKey}

/-- Everything that is stored is in the sample of a small cache. -/
theorem mem_take_of_lookup (horder : order.Perm cache.map.keys) (hlen : cache.map.keys.length ≤ 8)
    {e : Entry} (hlookup : cache.map.lookup key = some e) : key ∈ order.take 8 := by
  rw [List.take_of_length_le (horder.length_eq.trans_le hlen)]
  exact horder.symm.subset
    (AList.mem_keys.mp (AList.lookup_isSome.mp (Option.isSome_of_eq_some hlookup)))

theorem removes_of_evicted (horder : order.Perm cache.map.keys)
    (hlen : cache.map.keys.length ≤ cache.capacity) (h : cache.evicted order key = some victim) :
    Removes cache order key victim := by
  obtain ⟨hfull, habsent, e, holdest⟩ := ResultCache.evicted_cases h
  refine ⟨hfull, habsent, ⟨e, holdest.lookup_eq, holdest.mem_sample, holdest.lastUsed_le⟩,
    fun hsmall => ⟨e, holdest.lookup_eq, fun other e' hlookup => ?_⟩⟩
  exact holdest.lastUsed_le other
    (mem_take_of_lookup horder (hlen.trans hsmall) hlookup) e' hlookup

variable (victim) in
/-- A sample of two entries or more has one besides the victim. -/
theorem exists_other (horder : order.Perm cache.map.keys) (htwo : 2 ≤ cache.map.keys.length) :
    ∃ other ∈ order.take 8, other ≠ victim ∧ ∃ e, cache.map.lookup other = some e := by
  have hnodup : (order.take 8).Nodup :=
    (horder.nodup_iff.mpr cache.map.keys_nodup).sublist (List.take_sublist 8 order)
  have hlen : 2 ≤ (order.take 8).length := by
    rw [List.length_take, horder.length_eq]
    omega
  obtain ⟨other, hother, hne⟩ : ∃ other ∈ order.take 8, other ≠ victim := by
    by_contra hall
    push Not at hall
    have hsingle : (order.take 8).length ≤ [victim].length :=
      (List.subperm_of_subset hnodup fun other h =>
        List.mem_singleton.mpr (hall other h)).length_le
    rw [List.length_singleton] at hsingle
    omega
  have hmem : other ∈ cache.map :=
    AList.mem_keys.mpr (horder.subset (List.mem_of_mem_take hother))
  exact ⟨other, hother, hne, Option.isSome_iff_exists.mp (AList.lookup_isSome.mpr hmem)⟩

end Sample

theorem Inv.refines {capacity ttl : Nat} {s : State} (h : Inv capacity ttl s) :
    Refines capacity s := by
  refine ⟨h.length_le, fun now key value => ?_, h.tracks.lastUse,
    fun now order key value horder => ⟨s.cache.evicted order key, fun other hne => ?_, ?_⟩⟩
  · rw [ResultCache.get_fst, live_iff_exists]
    simp only [h.tracks.stored_iff]
  · exact ResultCache.put_lookup_of_ne hne
  · intro victim hvictim
    exact removes_of_evicted horder (h.length_le.trans h.capacity_eq.ge) hvictim

theorem Spread.keepsRecent {capacity ttl : Nat} {s : State} (hspread : Spread s)
    (h : Inv capacity ttl s) (htwo : 2 ≤ capacity) : KeepsRecent s := by
  intro now order key value recent e horder hlookup hrecent
  by_cases hkey : recent = key
  · subst hkey
    exact AList.lookup_isSome.mp (Option.isSome_of_eq_some ResultCache.put_lookup_self)
  · have hsurvives : s.cache.evicted order key ≠ some recent := by
      intro hvictim
      obtain ⟨hfull, _, oldest, holdest⟩ := ResultCache.evicted_cases hvictim
      obtain ⟨other, hother, hne, e', hlookup'⟩ :=
        exists_other recent horder (htwo.trans (h.capacity_eq.ge.trans hfull))
      have hsame : oldest = e := Option.some.inj (holdest.lookup_eq.symm.trans hlookup)
      -- as old as the victim and as recent as it, another entry would share its instant
      have heq : e'.lastUsed = e.lastUsed :=
        (hrecent other e' hlookup').antisymm (hsame ▸ holdest.lastUsed_le other hother e' hlookup')
      exact hne (hspread.key_eq other recent e' e hlookup' hlookup heq)
    rw [← AList.lookup_isSome, ResultCache.put_lookup_of_ne hkey, if_neg hsurvives, hlookup]
    rfl

/-- **The cache.** For every capacity of at least one and every time to live, after every sequence of
lookups and puts in which the clock does not go back, the cache refines the map of its history; and
where no two operations happen at one instant, a capacity of two keeps the most recent entry. -/
theorem cache_refines {capacity : Nat} (ttl : Nat) (hcapacity : 1 ≤ capacity) :
    (∀ ops s, Run step Free (init capacity ttl) ops s → Refines capacity s) ∧
      ∀ ops s, Run step Later (init capacity ttl) ops s → 2 ≤ capacity → KeepsRecent s := by
  have hinv {meets : State → Op → Prop} {ops : List Op} {s : State}
      (hrun : Run step meets (init capacity ttl) ops s) : Inv capacity ttl s :=
    hrun.invariant (fun _ _ _ h _ hstep => h.step hcapacity hstep) (inv_init capacity ttl)
  refine ⟨fun ops s hrun => (hinv hrun).refines, fun ops s hrun htwo => ?_⟩
  have hspread : Spread s :=
    hrun.invariant (fun _ _ _ h hlater hstep => h.step hlater hstep) (spread_init capacity ttl)
  exact hspread.keepsRecent (hinv hrun) htwo

/-- A cache of two entries that is given three: the entry that was found outlives the other, until
it is too old. -/
theorem cache_refines_full :
    let first : CacheKey := ⟨⟨List.replicate 32 1, rfl⟩⟩
    let second : CacheKey := ⟨⟨List.replicate 32 2, rfl⟩⟩
    let third : CacheKey := ⟨⟨List.replicate 32 3, rfl⟩⟩
    ∃ s, Run step Later (init 2 10) [.put 1 [] first [7], .put 2 [first] second [8],
        .get 3 first, .put 4 [second, first] third [9], .get 12 first] s ∧
      s.history = [.expired first, .put third [9] 4, .evicted second, .hit first 3,
        .put second [8] 2, .put first [7] 1] ∧
      Refines 2 s ∧ KeepsRecent s := by
  intro first second third
  have hexec : (exec step (fun s op => decide (Later s op)) (init 2 10)
      [.put 1 [] first [7], .put 2 [first] second [8], .get 3 first,
        .put 4 [second, first] third [9], .get 12 first]).map State.history =
      some [.expired first, .put third [9] 4, .evicted second, .hit first 3,
        .put second [8] 2, .put first [7] 1] := by
    decide +kernel
  obtain ⟨s, hs, hhistory⟩ := Option.map_eq_some_iff.mp hexec
  have hrun := (run_of_exec hs).weaken fun _ _ => of_decide_eq_true
  obtain ⟨hrefines, hrecent⟩ := cache_refines 10 (by decide : 1 ≤ 2)
  exact ⟨s, hrun, hhistory, hrefines _ s (hrun.weaken fun _ _ _ => trivial),
    hrecent _ s hrun (by decide)⟩

end CacheHistory

end Ohmcp
