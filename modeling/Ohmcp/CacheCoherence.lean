import Ohmcp.CacheHistory
import Ohmcp.SequentialCalls

/-! The caches at both ends, over time: connections that share the server's cache, each with a cache
of its own at the client, and what a reference is worth when the server sends it. -/

open Transition

namespace Ohmcp

variable [Externals]

namespace Coherence

/-! ### Connections -/

/-- What a connection is doing; its client makes one call after the other. The arguments are those
the server parses, and serialise to the client's bytes. -/
inductive Link where
  | idle
  | asked (name : String) (args : Value)
  /-- Between the two visits to the server's cache. -/
  | missed (name : String) (args : Value)
  | answered (name : String) (args : Value) (answer : CallAnswer)

/-- A reference, with what the two caches gave for its key at that moment. -/
structure Reference where
  conn : Nat
  key : CacheKey
  held : Option Bytes
  copy : Option Bytes

/-- The client has an unexpired copy of the bytes the server has. -/
def Reference.Coherent (reference : Reference) : Prop :=
  ∃ bytes, reference.held = some bytes ∧ reference.copy = some bytes

structure State where
  clock : Nat
  cache : ResultCache
  /-- By connection, the keys whose full result it was sent. -/
  delivered : Nat → Finset CacheKey
  links : Nat → Link
  clients : Nat → ResultCache
  /-- By key, what was last put into the server's cache, and when. -/
  puts : CacheKey → Option (Bytes × Nat)
  /-- By connection and key, the full result it was last sent, and when. -/
  sent : Nat → CacheKey → Option (Bytes × Nat)
  /-- By connection, the keys that were put into the server's cache since. -/
  renewed : Nat → Finset CacheKey
  /-- By connection and key, what its client last recorded, and when. -/
  recorded : Nat → CacheKey → Option (Bytes × Nat)
  /-- By connection, the keys its client evicted since. -/
  evicted : Nat → Finset CacheKey
  references : List Reference

omit [Externals] in
def start : State where
  clock := 0
  cache := .new 65536 cacheTtl
  delivered _ := ∅
  links _ := .idle
  clients _ := .new 4096 cacheTtl
  puts _ := none
  sent _ _ := none
  renewed _ := ∅
  recorded _ _ := none
  evicted _ := ∅
  references := []

inductive Op where
  | tick (elapsed : Nat)
  | call (conn : Nat) (name : String) (args : Value)
  /-- The first visit to the server's cache. -/
  | lookup (conn : Nat)
  /-- The run of the tool, and the second visit. -/
  | run (conn : Nat) (occasion : Nat) (order : List CacheKey)
  /-- The client takes the answer. -/
  | receive (conn : Nat) (order : List CacheKey)

namespace State

omit [Externals] in
/-- A full result leaves for a connection. -/
def send (s : State) (conn : Nat) (key : CacheKey) (value : Bytes) : State :=
  { s with
    sent := Function.update s.sent conn (Function.update (s.sent conn) key (some (value, s.clock)))
    renewed := Function.update s.renewed conn ((s.renewed conn).erase key) }

omit [Externals] in
/-- A result is put into the server's cache. -/
def renew (s : State) (key : CacheKey) (value : Bytes) : State :=
  { s with
    puts := Function.update s.puts key (some (value, s.clock))
    renewed := fun conn => insert key (s.renewed conn) }

omit [Externals] in
def refer (s : State) (conn : Nat) (key : CacheKey) : State :=
  { s with references := s.references ++
      [⟨conn, key, s.cache.live s.clock key, (s.clients conn).live s.clock key⟩] }

omit [Externals] in
def note (s : State) (conn : Nat) (key : CacheKey) : CallAnswer → State
  | .full value _ => s.send conn key value
  | .reference _ => s.refer conn key
  | .unknown => s

omit [Externals] in
/-- A client puts a result into its cache. -/
def record (s : State) (conn : Nat) (order : List CacheKey) (key : CacheKey) (value : Bytes) :
    State :=
  { s with
    recorded := Function.update s.recorded conn
      (Function.update (s.recorded conn) key (some (value, s.clock)))
    evicted := Function.update s.evicted conn
      ((s.evicted conn ∪ ((s.clients conn).evicted order key).toFinset).erase key) }

end State

/-- The first visit, of a call to a cacheable tool. -/
def visit (s : State) (conn : Nat) (name : String) (args : Value) (key : CacheKey) : State :=
  match answerCached s.clock s.cache (s.delivered conn) key with
  | (some answer, cache, delivered) =>
      { s.note conn key answer with
        cache := cache
        delivered := Function.update s.delivered conn delivered
        links := Function.update s.links conn (.answered name args answer) }
  | (none, cache, _) =>
      { s with cache := cache, links := Function.update s.links conn (.missed name args) }

/-- The run of the tool and the second visit. -/
def finish (registry : ToolRegistry) (s : State) (conn occasion : Nat) (order : List CacheKey)
    (name : String) (args : Value) : State :=
  let key := toolKey registry name args
  let (answer, cache, delivered) :=
    runTool ⟨s.clock, s.clock, occasion, order⟩ registry s.cache (s.delivered conn) key name args
  let noted := match key, answer with
    | some key, .full value _ => (s.renew key value).send conn key value
    | _, _ => s
  { noted with
    cache := cache
    delivered := Function.update s.delivered conn delivered
    links := Function.update s.links conn (.answered name args answer) }

/-- The client opens the answer, and records a full result. -/
def take (s : State) (conn : Nat) (order : List CacheKey) (name : String) (args : Value)
    (answer : CallAnswer) : State :=
  let key := callToolKey name args
  let noted := match key, answer with
    | some key, .full value true => s.record conn order key value
    | _, _ => s
  { noted with
    clients := Function.update s.clients conn
      (Sequential.kept (s.clients conn) ⟨s.clock, s.clock, 0, order⟩ key answer)
    links := Function.update s.links conn .idle }

def step (registry : ToolRegistry) (s : State) : Op → Option State
  | .tick elapsed => some { s with clock := s.clock + elapsed }
  | .call conn name args =>
      match s.links conn with
      | .idle => some { s with links := Function.update s.links conn (.asked name args) }
      | _ => none
  | .lookup conn =>
      match s.links conn with
      | .asked name args =>
          match toolKey registry name args with
          | some key => some (visit s conn name args key)
          | none => some { s with links := Function.update s.links conn (.missed name args) }
      | _ => none
  | .run conn occasion order =>
      match s.links conn with
      | .missed name args => some (finish registry s conn occasion order name args)
      | _ => none
  | .receive conn order =>
      match s.links conn with
      | .answered name args answer => some (take s conn order name args answer)
      | _ => none

/-- A call to a cacheable tool, with arguments below the threshold. -/
structure Asks (registry : ToolRegistry) (name : String) (args : Value) : Prop where
  cacheable : registry.isCacheable name = true
  small : (canonicalArgs args).length < shmThreshold

/-- The calls the connections make. -/
def Small (registry : ToolRegistry) (_ : State) : Op → Prop
  | .call _ name args => Asks registry name args
  | _ => True

/-- The copy of a connection is as good as what the server has: the client has not evicted it, and
nothing was put into the server's cache under the key since it was sent, or else the same bytes, and
the copy is not too old. -/
def Current (s : State) (conn : Nat) (key : CacheKey) : Prop :=
  key ∉ s.evicted conn ∧ (key ∉ s.renewed conn ∨ ∃ value since time,
    s.puts key = some (value, since) ∧ s.recorded conn key = some (value, time) ∧
      s.clock - time ≤ cacheTtl)

/-- The server refers to current copies only. -/
def Undisturbed (registry : ToolRegistry) (s : State) : Op → Prop
  | .lookup conn => ∀ name args key, s.links conn = .asked name args →
      toolKey registry name args = some key → key ∈ s.delivered conn →
      (s.cache.live s.clock key).isSome → Current s conn key
  | _ => True

section Equations

variable {registry : ToolRegistry} {s : State} {conn occasion : Nat} {order : List CacheKey}
  {name : String} {args : Value} {key : CacheKey} {value : Bytes}

theorem Asks.toolKey_eq (h : Asks registry name args) :
    toolKey registry name args = some (.compute name (canonicalArgs args)) :=
  toolKey_of_cacheable h.cacheable args

/-- The client records under the key the server answers with. -/
theorem Asks.callToolKey_eq (h : Asks registry name args) :
    callToolKey name args = toolKey registry name args := by
  rw [h.toolKey_eq, callToolKey, if_pos h.small]

omit [Externals] in
theorem visit_miss (hlive : s.cache.live s.clock key = none) : visit s conn name args key =
    { s with
      cache := (s.cache.get s.clock key).2
      links := Function.update s.links conn (.missed name args) } := by
  rw [visit, answerCached_of_miss hlive]

omit [Externals] in
theorem visit_reference (hlive : s.cache.live s.clock key = some value)
    (hmem : key ∈ s.delivered conn) : visit s conn name args key =
    { s.refer conn key with
      cache := (s.cache.get s.clock key).2
      links := Function.update s.links conn (.answered name args (.reference key)) } := by
  rw [visit, answerCached_of_live hlive, if_pos hmem]
  dsimp only
  rw [Function.update_eq_self]
  rfl

omit [Externals] in
theorem visit_full (hlive : s.cache.live s.clock key = some value)
    (hmem : key ∉ s.delivered conn) : visit s conn name args key =
    { s.send conn key value with
      cache := (s.cache.get s.clock key).2
      delivered := Function.update s.delivered conn (insert key (s.delivered conn))
      links := Function.update s.links conn (.answered name args (.full value true)) } := by
  rw [visit, answerCached_of_live hlive, if_neg hmem]
  rfl

theorem finish_unknown (hcall : registry.call occasion name args = none) :
    finish registry s conn occasion order name args =
      { s with links := Function.update s.links conn (.answered name args .unknown) } := by
  unfold finish runTool
  rw [hcall]
  dsimp only
  rw [Function.update_eq_self]
  cases toolKey registry name args <;> rfl

theorem finish_full {result : CallToolResult} (hkey : toolKey registry name args = some key)
    (hcall : registry.call occasion name args = some result) :
    finish registry s conn occasion order name args =
      { (s.renew key (Externals.toVec .callToolResult result)).send conn key
          (Externals.toVec .callToolResult result) with
        cache := s.cache.put s.clock order key (Externals.toVec .callToolResult result)
        delivered := Function.update s.delivered conn (insert key (s.delivered conn))
        links := Function.update s.links conn
          (.answered name args (.full (Externals.toVec .callToolResult result) true)) } := by
  rw [finish, hkey, runTool, hcall]

theorem take_full (hkey : callToolKey name args = some key) :
    take s conn order name args (.full value true) =
      { s.record conn order key value with
        clients := Function.update s.clients conn ((s.clients conn).put s.clock order key value)
        links := Function.update s.links conn .idle } := by
  unfold take
  rw [hkey]
  rfl

theorem take_reference : take s conn order name args (.reference key) =
    { s with
      clients := Function.update s.clients conn ((s.clients conn).get s.clock key).2
      links := Function.update s.links conn .idle } := by
  unfold take
  cases callToolKey name args <;> rfl

theorem take_unknown : take s conn order name args .unknown =
    { s with links := Function.update s.links conn .idle } := by
  have hkept : Function.update s.clients conn (Sequential.kept (s.clients conn)
      ⟨s.clock, s.clock, 0, order⟩ (callToolKey name args) .unknown) = s.clients :=
    Function.update_eq_self conn s.clients
  unfold take
  cases hkey : callToolKey name args with
  | none =>
      rw [hkey] at hkept
      simp only [hkept]
  | some key =>
      rw [hkey] at hkept
      simp only [hkept]

end Equations

/-! ### What the caches know of each other -/

/-- A full result is on its way to the client. -/
def Link.Brings (link : Link) (key : CacheKey) (value : Bytes) : Prop :=
  ∃ name args, link = .answered name args (.full value true) ∧ callToolKey name args = some key

/-- What a connection was last sent under a key: nothing else was put into the server's cache since,
unless the key is renewed, and the client has recorded it, or is about to. -/
structure Copy (s : State) (conn : Nat) (key : CacheKey) (value : Bytes) (time : Nat) : Prop where
  sent : s.sent conn key = some (value, time)
  time_le : time ≤ s.clock
  fresh : key ∉ s.renewed conn → ∃ since, s.puts key = some (value, since) ∧ since ≤ time
  arrives : (s.links conn).Brings key value ∨
    ∃ since, s.recorded conn key = some (value, since) ∧ time ≤ since

/-- What a connection is doing fits what it was sent. -/
def Sound (registry : ToolRegistry) (s : State) (conn : Nat) : Link → Prop
  | .idle => True
  | .asked name args => Asks registry name args
  | .missed name args => Asks registry name args
  | .answered name args answer => Asks registry name args ∧
      ∀ value cacheable, answer = .full value cacheable → cacheable = true ∧
        ∃ key time, callToolKey name args = some key ∧ s.sent conn key = some (value, time) ∧
          time ≤ s.clock

structure Inv (registry : ToolRegistry) (s : State) : Prop where
  server : ∀ key value time, s.cache.stored key = some (value, time) → s.puts key = some (value, time)
  client : ∀ conn key value time, (s.clients conn).stored key = some (value, time) →
    s.recorded conn key = some (value, time) ∧ key ∉ s.evicted conn
  kept : ∀ conn key value time, s.recorded conn key = some (value, time) → key ∉ s.evicted conn →
    s.clock - time ≤ cacheTtl → (s.clients conn).stored key = some (value, time)
  copy : ∀ conn key, key ∈ s.delivered conn → ∃ value time, Copy s conn key value time
  sound : ∀ conn, Sound registry s conn (s.links conn)
  puts_le : ∀ key value time, s.puts key = some (value, time) → time ≤ s.clock
  ttl_eq : s.cache.ttl = cacheTtl
  client_ttl_eq : ∀ conn, (s.clients conn).ttl = cacheTtl

section Invariant

variable {registry : ToolRegistry} {s t : State} {conn : Nat} {name : String} {args : Value}
  {key : CacheKey} {value : Bytes} {time : Nat}

theorem inv_start (registry : ToolRegistry) : Inv registry start where
  server _ _ _ h := by cases h
  client _ _ _ _ h := by cases h
  kept _ _ _ _ h := by cases h
  copy _ key h := absurd h (Finset.notMem_empty key)
  sound _ := trivial
  puts_le _ _ _ h := by cases h
  ttl_eq := rfl
  client_ttl_eq _ := rfl

theorem Copy.mono (h : Copy s conn key value time) (hsent : t.sent conn key = s.sent conn key)
    (hclock : s.clock ≤ t.clock) (hrenewed : key ∈ s.renewed conn → key ∈ t.renewed conn)
    (hputs : key ∉ t.renewed conn → t.puts key = s.puts key)
    (hrecorded : t.recorded conn key = s.recorded conn key)
    (hlink : (s.links conn).Brings key value → (t.links conn).Brings key value) :
    Copy t conn key value time where
  sent := hsent.trans h.sent
  time_le := h.time_le.trans hclock
  fresh hnot := by
    rw [hputs hnot]
    exact h.fresh fun hmem => hnot (hrenewed hmem)
  arrives := by
    rw [hrecorded]
    exact h.arrives.imp_left hlink

theorem Sound.mono {link : Link} (h : Sound registry s conn link) (hsent : t.sent conn = s.sent conn)
    (hclock : s.clock ≤ t.clock) : Sound registry t conn link := by
  cases link with
  | idle => trivial
  | asked name args => exact h
  | missed name args => exact h
  | answered name args answer =>
      refine ⟨h.1, fun value cacheable hfull => ?_⟩
      obtain ⟨hcacheable, key, time, hkey, hvalue, hle⟩ := h.2 value cacheable hfull
      exact ⟨hcacheable, key, time, hkey, hsent ▸ hvalue, hle.trans hclock⟩

/-- A connection goes on, and no result was on its way to it. -/
theorem Inv.link {link : Link} (h : Inv registry s) (hsound : Sound registry s conn link)
    (hnot : ∀ key value, ¬ (s.links conn).Brings key value) :
    Inv registry { s with links := Function.update s.links conn link } where
  server := h.server
  client := h.client
  kept := h.kept
  copy other key hmem := by
    obtain ⟨value, time, hcopy⟩ := h.copy other key hmem
    refine ⟨value, time, hcopy.mono rfl le_rfl id (fun _ => rfl) rfl fun hbrings => ?_⟩
    change (Function.update s.links conn link other).Brings key value
    by_cases hother : other = conn
    · rw [hother] at hbrings
      exact absurd hbrings (hnot key value)
    · rwa [Function.update_of_ne hother]
  sound other := by
    change Sound registry _ other (Function.update s.links conn link other)
    by_cases hother : other = conn
    · rw [hother, Function.update_self]
      exact hsound.mono rfl le_rfl
    · rw [Function.update_of_ne hother]
      exact (h.sound other).mono rfl le_rfl
  puts_le := h.puts_le
  ttl_eq := h.ttl_eq
  client_ttl_eq := h.client_ttl_eq

theorem Inv.get (h : Inv registry s) (key : CacheKey) :
    Inv registry { s with cache := (s.cache.get s.clock key).2 } where
  server other value time hstored := h.server other value time (ServerCache.stored_get hstored)
  client := h.client
  kept := h.kept
  copy other key hmem := by
    obtain ⟨value, time, hcopy⟩ := h.copy other key hmem
    exact ⟨value, time, hcopy.mono rfl le_rfl id (fun _ => rfl) rfl id⟩
  sound other := (h.sound other).mono rfl le_rfl
  puts_le := h.puts_le
  ttl_eq := ResultCache.get_ttl.trans h.ttl_eq
  client_ttl_eq := h.client_ttl_eq

theorem Inv.refer (h : Inv registry s) (conn : Nat) (key : CacheKey) :
    Inv registry (s.refer conn key) where
  server := h.server
  client := h.client
  kept := h.kept
  copy other key hmem := by
    obtain ⟨value, time, hcopy⟩ := h.copy other key hmem
    exact ⟨value, time, hcopy.mono rfl le_rfl id (fun _ => rfl) rfl id⟩
  sound other := (h.sound other).mono rfl le_rfl
  puts_le := h.puts_le
  ttl_eq := h.ttl_eq
  client_ttl_eq := h.client_ttl_eq

theorem Inv.tick (h : Inv registry s) (elapsed : Nat) :
    Inv registry { s with clock := s.clock + elapsed } where
  server := h.server
  client := h.client
  kept other key value time hrecorded hnot hage := by
    refine h.kept other key value time hrecorded hnot ?_
    change s.clock + elapsed - time ≤ cacheTtl at hage
    omega
  copy other key hmem := by
    obtain ⟨value, time, hcopy⟩ := h.copy other key hmem
    exact ⟨value, time, hcopy.mono rfl (Nat.le_add_right _ _) id (fun _ => rfl) rfl id⟩
  sound other := (h.sound other).mono rfl (Nat.le_add_right _ _)
  puts_le key value time hput := (h.puts_le key value time hput).trans (Nat.le_add_right _ _)
  ttl_eq := h.ttl_eq
  client_ttl_eq := h.client_ttl_eq

/-- A result that is put into the server's cache renews the key for every connection. -/
theorem Inv.renew (h : Inv registry s) (order : List CacheKey) (key : CacheKey) (value : Bytes) :
    Inv registry { s.renew key value with cache := s.cache.put s.clock order key value } where
  server other held time hstored := by
    change Function.update s.puts key _ other = _
    by_cases hother : other = key
    · subst hother
      rw [ResultCache.put_stored_self] at hstored
      rw [Function.update_self, hstored]
    · rw [Function.update_of_ne hother]
      exact h.server other held time (ResultCache.put_stored_eq_some hother hstored)
  client := h.client
  kept := h.kept
  copy other held hmem := by
    obtain ⟨copied, time, hcopy⟩ := h.copy other held hmem
    refine ⟨copied, time, hcopy.mono rfl le_rfl (Finset.mem_insert_of_mem) (fun hnot => ?_) rfl id⟩
    refine Function.update_of_ne (fun heq => hnot ?_) ..
    rw [heq]
    exact Finset.mem_insert_self key _
  sound other := (h.sound other).mono rfl le_rfl
  puts_le other held time hput := by
    change Function.update s.puts key _ other = _ at hput
    by_cases hother : other = key
    · subst hother
      rw [Function.update_self] at hput
      obtain ⟨_, rfl⟩ := Prod.mk.inj (Option.some.inj hput)
      exact le_rfl
    · rw [Function.update_of_ne hother] at hput
      exact h.puts_le other held time hput
  ttl_eq := ResultCache.put_ttl.trans h.ttl_eq
  client_ttl_eq := h.client_ttl_eq

/-- A full result, as the server's cache has it, leaves for a connection. -/
theorem Inv.send (h : Inv registry s) (hasks : Asks registry name args)
    (hkey : toolKey registry name args = some key)
    (hputs : ∃ since, s.puts key = some (value, since))
    (hnot : ∀ key value, ¬ (s.links conn).Brings key value) :
    Inv registry { s.send conn key value with
      delivered := Function.update s.delivered conn (insert key (s.delivered conn))
      links := Function.update s.links conn (.answered name args (.full value true)) } := by
  have hown : callToolKey name args = some key := hasks.callToolKey_eq.trans hkey
  have hothers : ∀ {other other' : _}, (other ≠ conn ∨ other' ≠ key) →
      (s.send conn key value).sent other other' = s.sent other other' := by
    intro other other' hne
    change Function.update s.sent conn _ other other' = _
    by_cases hother : other = conn
    · rw [hother, Function.update_self, Function.update_of_ne (hne.resolve_left (not_not.mpr hother))]
    · rw [Function.update_of_ne hother]
  have hself : (s.send conn key value).sent conn key = some (value, s.clock) := by
    change Function.update s.sent conn _ conn key = _
    rw [Function.update_self, Function.update_self]
  have hrenewed : ∀ {other other' : _}, (other ≠ conn ∨ other' ≠ key) →
      (other' ∈ (s.send conn key value).renewed other ↔ other' ∈ s.renewed other) := by
    intro other other' hne
    change other' ∈ Function.update s.renewed conn _ other ↔ _
    by_cases hother : other = conn
    · rw [hother, Function.update_self, Finset.mem_erase]
      exact and_iff_right (hne.resolve_left (not_not.mpr hother))
    · rw [Function.update_of_ne hother]
  refine ⟨h.server, h.client, h.kept, fun other other' hmem => ?_, fun other => ?_, h.puts_le,
    h.ttl_eq, h.client_ttl_eq⟩
  · by_cases hsame : other = conn ∧ other' = key
    · obtain ⟨rfl, rfl⟩ := hsame
      obtain ⟨since, hput⟩ := hputs
      refine ⟨value, s.clock, hself, le_rfl, fun _ => ⟨since, hput, h.puts_le _ _ _ hput⟩, Or.inl ?_⟩
      exact ⟨name, args, Function.update_self .., hown⟩
    · have hne : other ≠ conn ∨ other' ≠ key := not_and_or.mp hsame
      have hold : other' ∈ s.delivered other := by
        change other' ∈ Function.update s.delivered conn _ other at hmem
        by_cases hother : other = conn
        · rw [hother, Function.update_self, Finset.mem_insert] at hmem
          rw [hother]
          exact hmem.resolve_left (hne.resolve_left (not_not.mpr hother))
        · rwa [Function.update_of_ne hother] at hmem
      obtain ⟨copied, time, hcopy⟩ := h.copy other other' hold
      refine ⟨copied, time, hcopy.mono (hothers hne) le_rfl (hrenewed hne).mpr (fun _ => rfl) rfl
        fun hbrings => ?_⟩
      change (Function.update s.links conn _ other).Brings other' copied
      by_cases hother : other = conn
      · rw [hother] at hbrings
        exact absurd hbrings (hnot other' copied)
      · rwa [Function.update_of_ne hother]
  · change Sound registry _ other (Function.update s.links conn _ other)
    by_cases hother : other = conn
    · rw [hother, Function.update_self]
      refine ⟨hasks, fun value' cacheable hfull => ?_⟩
      obtain ⟨rfl, rfl⟩ := CallAnswer.full.inj hfull
      exact ⟨rfl, key, s.clock, hown, hself, le_rfl⟩
    · rw [Function.update_of_ne hother]
      exact (h.sound other).mono (funext fun other' => hothers (Or.inl hother)) le_rfl

omit [Externals] in
theorem stored_put {cache : ResultCache} {now : Nat} {order : List CacheKey} {other : CacheKey}
    (hne : other ≠ key) : (cache.put now order key value).stored other =
      if cache.evicted order key = some other then none else cache.stored other := by
  rw [ResultCache.stored, ResultCache.put_lookup_of_ne hne]
  split_ifs <;> rfl

/-- A client's cache, against what it recorded and what it evicted since. -/
structure Holds (clock : Nat) (cache : ResultCache) (recorded : CacheKey → Option (Bytes × Nat))
    (evicted : Finset CacheKey) : Prop where
  stored : ∀ key value time, cache.stored key = some (value, time) →
    recorded key = some (value, time) ∧ key ∉ evicted
  kept : ∀ key value time, recorded key = some (value, time) → key ∉ evicted →
    clock - time ≤ cacheTtl → cache.stored key = some (value, time)
  ttl_eq : cache.ttl = cacheTtl

theorem Inv.holds (h : Inv registry s) (conn : Nat) :
    Holds s.clock (s.clients conn) (s.recorded conn) (s.evicted conn) :=
  ⟨h.client conn, h.kept conn, h.client_ttl_eq conn⟩

section Holds

variable {clock : Nat} {cache : ResultCache} {recorded : CacheKey → Option (Bytes × Nat)}
  {evicted : Finset CacheKey}

omit [Externals] in
/-- Recording a result, and evicting another. -/
theorem Holds.put (h : Holds clock cache recorded evicted) (order : List CacheKey) (key : CacheKey)
    (value : Bytes) : Holds clock (cache.put clock order key value)
      (Function.update recorded key (some (value, clock)))
      ((evicted ∪ (cache.evicted order key).toFinset).erase key) := by
  have hmem : ∀ other, other ∈ (evicted ∪ (cache.evicted order key).toFinset).erase key ↔
      other ≠ key ∧ (other ∈ evicted ∨ cache.evicted order key = some other) := by
    intro other
    rw [Finset.mem_erase, Finset.mem_union, Option.mem_toFinset, Option.mem_def]
  refine ⟨fun other held time hstored => ?_, fun other held time hrecorded hnot hage => ?_,
    ResultCache.put_ttl.trans h.ttl_eq⟩
  · by_cases hsame : other = key
    · subst hsame
      rw [ResultCache.put_stored_self] at hstored
      rw [Function.update_self, hstored]
      exact ⟨rfl, Finset.notMem_erase other _⟩
    · rw [stored_put hsame] at hstored
      split_ifs at hstored with hvictim
      obtain ⟨hrecorded, hnot⟩ := h.stored other held time hstored
      rw [Function.update_of_ne hsame]
      exact ⟨hrecorded, fun hin => ((hmem other).mp hin).2.elim hnot hvictim⟩
  · by_cases hsame : other = key
    · subst hsame
      rw [Function.update_self] at hrecorded
      rw [ResultCache.put_stored_self, hrecorded]
    · rw [Function.update_of_ne hsame] at hrecorded
      have hout := fun hin => hnot ((hmem other).mpr ⟨hsame, hin⟩)
      rw [stored_put hsame, if_neg fun hvictim => hout (Or.inr hvictim)]
      exact h.kept other held time hrecorded (fun hin => hout (Or.inl hin)) hage

omit [Externals] in
/-- What is young enough is found, and stays. -/
theorem Holds.get (h : Holds clock cache recorded evicted) (key : CacheKey) :
    Holds clock (cache.get clock key).2 recorded evicted where
  stored other held time hstored := h.stored other held time (ServerCache.stored_get hstored)
  kept other held time hrecorded hnot hage := by
    have hstored := h.kept other held time hrecorded hnot hage
    by_cases hsame : other = key
    · subst hsame
      have hlive : cache.live clock other = some held := by
        apply ResultCache.live_eq_some hstored
        rw [h.ttl_eq]
        exact hage
      rw [ResultCache.get_stored_of_live hlive]
      exact hstored
    · rw [ResultCache.get_stored_of_ne hsame]
      exact hstored
  ttl_eq := ResultCache.get_ttl.trans h.ttl_eq

end Holds

/-- A client takes a result and records it. -/
theorem Inv.record (h : Inv registry s) (order : List CacheKey)
    (hlink : s.links conn = .answered name args (.full value true))
    (hkey : callToolKey name args = some key) :
    Inv registry { s.record conn order key value with
      clients := Function.update s.clients conn ((s.clients conn).put s.clock order key value)
      links := Function.update s.links conn .idle } := by
  have hself : (s.record conn order key value).recorded conn =
      Function.update (s.recorded conn) key (some (value, s.clock)) := Function.update_self ..
  have hrest : ∀ other, other ≠ conn →
      (s.record conn order key value).recorded other = s.recorded other :=
    fun other hne => Function.update_of_ne hne ..
  have hholds : ∀ other, Holds s.clock
      (Function.update s.clients conn ((s.clients conn).put s.clock order key value) other)
      ((s.record conn order key value).recorded other)
      ((s.record conn order key value).evicted other) := by
    intro other
    by_cases hother : other = conn
    · subst hother
      simp only [State.record, Function.update_self]
      exact (h.holds other).put order key value
    · simp only [State.record, Function.update_of_ne hother]
      exact h.holds other
  obtain ⟨own, at_, hown, hsent, _⟩ : ∃ own at_, callToolKey name args = some own ∧
      s.sent conn own = some (value, at_) ∧ at_ ≤ s.clock := by
    have hsound := h.sound conn
    rw [hlink] at hsound
    exact (hsound.2 value true rfl).2
  obtain rfl : own = key := Option.some.inj (hown.symm.trans hkey)
  refine ⟨h.server, fun other => (hholds other).stored, fun other => (hholds other).kept,
    fun other other' hmem => ?_, fun other => ?_, h.puts_le, h.ttl_eq,
    fun other => (hholds other).ttl_eq⟩
  · obtain ⟨copied, time, hcopy⟩ := h.copy other other' hmem
    refine ⟨copied, time, hcopy.sent, hcopy.time_le, hcopy.fresh, ?_⟩
    change (Function.update s.links conn .idle other).Brings other' copied ∨
      ∃ since, (s.record conn order own value).recorded other other' = _ ∧ _
    by_cases hother : other = conn
    · subst hother
      right
      rw [hself]
      by_cases hsame : other' = own
      · subst hsame
        obtain ⟨rfl, _⟩ := Prod.mk.inj (Option.some.inj (hsent.symm.trans hcopy.sent))
        exact ⟨s.clock, Function.update_self .., hcopy.time_le⟩
      · rw [Function.update_of_ne hsame]
        refine hcopy.arrives.resolve_left ?_
        rintro ⟨name', args', hlink', hkey'⟩
        rw [hlink] at hlink'
        obtain ⟨rfl, rfl, _⟩ := Link.answered.inj hlink'
        exact hsame (Option.some.inj (hkey'.symm.trans hkey))
    · rw [hrest other hother, Function.update_of_ne hother]
      exact hcopy.arrives
  · change Sound registry _ other (Function.update s.links conn .idle other)
    by_cases hother : other = conn
    · rw [hother, Function.update_self]
      trivial
    · rw [Function.update_of_ne hother]
      exact (h.sound other).mono rfl le_rfl

/-- A client follows a reference. -/
theorem Inv.follow (h : Inv registry s) (conn : Nat) (key : CacheKey) :
    Inv registry { s with
      clients := Function.update s.clients conn ((s.clients conn).get s.clock key).2 } := by
  have hholds : ∀ other, Holds s.clock
      (Function.update s.clients conn ((s.clients conn).get s.clock key).2 other)
      (s.recorded other) (s.evicted other) := by
    intro other
    by_cases hother : other = conn
    · subst hother
      rw [Function.update_self]
      exact (h.holds other).get key
    · rw [Function.update_of_ne hother]
      exact h.holds other
  refine ⟨h.server, fun other => (hholds other).stored, fun other => (hholds other).kept,
    fun other other' hmem => ?_, fun other => (h.sound other).mono rfl le_rfl, h.puts_le, h.ttl_eq,
    fun other => (hholds other).ttl_eq⟩
  obtain ⟨copied, time, hcopy⟩ := h.copy other other' hmem
  exact ⟨copied, time, hcopy.mono rfl le_rfl id (fun _ => rfl) rfl id⟩

/-! ### Steps -/

theorem not_brings_asked (hlink : s.links conn = .asked name args) (key : CacheKey)
    (value : Bytes) : ¬ (s.links conn).Brings key value := by
  rintro ⟨_, _, hbrings, _⟩
  rw [hlink] at hbrings
  cases hbrings

theorem not_brings_missed (hlink : s.links conn = .missed name args) (key : CacheKey)
    (value : Bytes) : ¬ (s.links conn).Brings key value := by
  rintro ⟨_, _, hbrings, _⟩
  rw [hlink] at hbrings
  cases hbrings

theorem not_brings_answered {answer : CallAnswer} (hlink : s.links conn = .answered name args answer)
    (hanswer : ∀ value, answer ≠ .full value true) (key : CacheKey) (value : Bytes) :
    ¬ (s.links conn).Brings key value := by
  rintro ⟨_, _, hbrings, _⟩
  rw [hlink] at hbrings
  exact hanswer value (Link.answered.inj hbrings).2.2

theorem Inv.visit (h : Inv registry s) (hlink : s.links conn = .asked name args)
    (hkey : toolKey registry name args = some key) :
    Inv registry (visit s conn name args key) := by
  have hnot := not_brings_asked hlink
  have hasks : Asks registry name args := by
    have hsound := h.sound conn
    rw [hlink] at hsound
    exact hsound
  cases hlive : s.cache.live s.clock key with
  | none =>
      rw [visit_miss hlive]
      exact (h.get key).link hasks hnot
  | some value =>
      by_cases hmem : key ∈ s.delivered conn
      · rw [visit_reference hlive hmem]
        exact ((h.refer conn key).get key).link ⟨hasks, nofun⟩ hnot
      · rw [visit_full hlive hmem]
        obtain ⟨since, hstored, _⟩ := ResultCache.exists_of_live hlive
        exact (h.get key).send hasks hkey ⟨since, h.server key value since hstored⟩ hnot

theorem Inv.finish (h : Inv registry s) (hlink : s.links conn = .missed name args)
    (occasion : Nat) (order : List CacheKey) :
    Inv registry (finish registry s conn occasion order name args) := by
  have hnot := not_brings_missed hlink
  have hasks : Asks registry name args := by
    have hsound := h.sound conn
    rw [hlink] at hsound
    exact hsound
  cases hcall : registry.call occasion name args with
  | none =>
      rw [finish_unknown hcall]
      exact h.link ⟨hasks, nofun⟩ hnot
  | some result =>
      rw [finish_full hasks.toolKey_eq hcall]
      refine (h.renew order _ _).send hasks hasks.toolKey_eq ⟨s.clock, ?_⟩ hnot
      exact Function.update_self ..

theorem Inv.take (h : Inv registry s) {answer : CallAnswer}
    (hlink : s.links conn = .answered name args answer) (order : List CacheKey) :
    Inv registry (take s conn order name args answer) := by
  cases answer with
  | reference key =>
      rw [take_reference]
      exact (h.follow conn key).link trivial (not_brings_answered hlink nofun)
  | unknown =>
      rw [take_unknown]
      exact h.link trivial (not_brings_answered hlink nofun)
  | full value cacheable =>
      have hsound := h.sound conn
      rw [hlink] at hsound
      obtain ⟨rfl, key, _, hkey, _⟩ := hsound.2 value cacheable rfl
      rw [take_full hkey]
      exact h.record order hlink hkey

theorem step_call (hstep : step registry s (.call conn name args) = some t) :
    s.links conn = .idle ∧
      t = { s with links := Function.update s.links conn (.asked name args) } := by
  cases hlink : s.links conn with
  | idle =>
      rw [step, hlink] at hstep
      exact ⟨rfl, (Option.some.inj hstep).symm⟩
  | _ =>
      rw [step, hlink] at hstep
      cases hstep

theorem step_lookup (h : Inv registry s) (hstep : step registry s (.lookup conn) = some t) :
    ∃ name args key, s.links conn = .asked name args ∧ toolKey registry name args = some key ∧
      t = visit s conn name args key := by
  cases hlink : s.links conn with
  | asked name args =>
      have hasks : Asks registry name args := by
        have hsound := h.sound conn
        rw [hlink] at hsound
        exact hsound
      rw [step, hlink] at hstep
      dsimp only at hstep
      rw [hasks.toolKey_eq] at hstep
      exact ⟨name, args, _, rfl, hasks.toolKey_eq, (Option.some.inj hstep).symm⟩
  | _ =>
      rw [step, hlink] at hstep
      cases hstep

theorem step_run {occasion : Nat} {order : List CacheKey}
    (hstep : step registry s (.run conn occasion order) = some t) :
    ∃ name args, s.links conn = .missed name args ∧
      t = finish registry s conn occasion order name args := by
  cases hlink : s.links conn with
  | missed name args =>
      rw [step, hlink] at hstep
      exact ⟨name, args, rfl, (Option.some.inj hstep).symm⟩
  | _ =>
      rw [step, hlink] at hstep
      cases hstep

theorem step_receive {order : List CacheKey}
    (hstep : step registry s (.receive conn order) = some t) :
    ∃ name args answer, s.links conn = .answered name args answer ∧
      t = take s conn order name args answer := by
  cases hlink : s.links conn with
  | answered name args answer =>
      rw [step, hlink] at hstep
      exact ⟨name, args, answer, rfl, (Option.some.inj hstep).symm⟩
  | _ =>
      rw [step, hlink] at hstep
      cases hstep

theorem Inv.step {op : Op} (h : Inv registry s) (hsmall : Small registry s op)
    (hstep : step registry s op = some t) : Inv registry t := by
  cases op with
  | tick elapsed =>
      obtain rfl := Option.some.inj hstep
      exact h.tick elapsed
  | call conn name args =>
      obtain ⟨hlink, rfl⟩ := step_call hstep
      refine h.link hsmall ?_
      rintro key value ⟨_, _, hbrings, _⟩
      rw [hlink] at hbrings
      cases hbrings
  | lookup conn =>
      obtain ⟨name, args, key, hlink, hkey, rfl⟩ := step_lookup h hstep
      exact h.visit hlink hkey
  | run conn occasion order =>
      obtain ⟨name, args, hlink, rfl⟩ := step_run hstep
      exact h.finish hlink occasion order
  | receive conn order =>
      obtain ⟨name, args, answer, hlink, rfl⟩ := step_receive hstep
      exact h.take hlink order

/-- When the server is about to refer to a copy, the copy is what the server has exactly if it is
current. -/
theorem Inv.live_iff (h : Inv registry s) (hlink : s.links conn = .asked name args)
    (hmem : key ∈ s.delivered conn) (hlive : s.cache.live s.clock key = some value) :
    (s.clients conn).live s.clock key = some value ↔ Current s conn key := by
  obtain ⟨copied, time, hcopy⟩ := h.copy conn key hmem
  obtain ⟨recordedAt, hrecorded, hle⟩ := hcopy.arrives.resolve_left (not_brings_asked hlink _ _)
  obtain ⟨since, hstored, hage⟩ := ResultCache.exists_of_live hlive
  have hputs := h.server key value since hstored
  rw [h.ttl_eq] at hage
  constructor
  · intro hown
    obtain ⟨own, hownStored, hownAge⟩ := ResultCache.exists_of_live hown
    obtain ⟨hownRecorded, hnot⟩ := h.client conn key value own hownStored
    rw [h.client_ttl_eq] at hownAge
    exact ⟨hnot, Or.inr ⟨value, since, own, hputs, hownRecorded, hownAge⟩⟩
  · rintro ⟨hnot, hcurrent⟩
    have hyoung : copied = value ∧ s.clock - recordedAt ≤ cacheTtl := by
      rcases hcurrent with hfresh | ⟨last, lastAt, own, hlast, hown, hownAge⟩
      · -- nothing else was put: the copy is younger than the server's entry
        obtain ⟨first, hfirst, hfirstLe⟩ := hcopy.fresh hfresh
        obtain ⟨rfl, rfl⟩ := Prod.mk.inj (Option.some.inj (hputs.symm.trans hfirst))
        exact ⟨rfl, by omega⟩
      · obtain ⟨rfl, _⟩ := Prod.mk.inj (Option.some.inj (hputs.symm.trans hlast))
        obtain ⟨rfl, rfl⟩ := Prod.mk.inj (Option.some.inj (hrecorded.symm.trans hown))
        exact ⟨rfl, hownAge⟩
    obtain ⟨rfl, hownAge⟩ := hyoung
    apply ResultCache.live_eq_some (h.kept conn key copied recordedAt hrecorded hnot hownAge)
    rw [h.client_ttl_eq]
    exact hownAge

theorem references_finish {occasion : Nat} {order : List CacheKey} :
    (finish registry s conn occasion order name args).references = s.references := by
  unfold finish
  dsimp only
  split <;> rfl

theorem references_take {order : List CacheKey} {answer : CallAnswer} :
    (take s conn order name args answer).references = s.references := by
  unfold take
  dsimp only
  split <;> rfl

/-- After a step all references are coherent exactly if they were before and the step refers to a
current copy, if it refers to one. -/
theorem coherent_step {op : Op} (h : Inv registry s) (hstep : step registry s op = some t) :
    (∀ reference ∈ t.references, reference.Coherent) ↔
      (∀ reference ∈ s.references, reference.Coherent) ∧ Undisturbed registry s op := by
  cases op with
  | tick elapsed =>
      obtain rfl := Option.some.inj hstep
      exact (and_iff_left trivial).symm
  | call conn name args =>
      obtain ⟨_, rfl⟩ := step_call hstep
      exact (and_iff_left trivial).symm
  | run conn occasion order =>
      obtain ⟨name, args, _, rfl⟩ := step_run hstep
      rw [references_finish]
      exact (and_iff_left trivial).symm
  | receive conn order =>
      obtain ⟨name, args, answer, _, rfl⟩ := step_receive hstep
      rw [references_take]
      exact (and_iff_left trivial).symm
  | lookup conn =>
      obtain ⟨name, args, key, hlink, hkey, rfl⟩ := step_lookup h hstep
      have honly : Undisturbed registry s (.lookup conn) ↔
          (key ∈ s.delivered conn → (s.cache.live s.clock key).isSome → Current s conn key) := by
        refine ⟨fun hall => hall name args key hlink hkey, fun hone name' args' key' hlink' hkey' => ?_⟩
        obtain ⟨rfl, rfl⟩ := Link.asked.inj (hlink.symm.trans hlink')
        obtain rfl := Option.some.inj (hkey.symm.trans hkey')
        exact hone
      rw [honly]
      cases hlive : s.cache.live s.clock key with
      | none =>
          rw [visit_miss hlive]
          exact (and_iff_left fun _ hsome => (by cases hsome)).symm
      | some value =>
          by_cases hmem : key ∈ s.delivered conn
          · rw [visit_reference hlive hmem]
            have hrefers : (s.refer conn key).references = s.references ++
                [⟨conn, key, some value, (s.clients conn).live s.clock key⟩] := by
              rw [State.refer, hlive]
            change (∀ reference ∈ (s.refer conn key).references, reference.Coherent) ↔ _
            rw [hrefers, List.forall_mem_append, List.forall_mem_singleton]
            refine and_congr_right fun _ => ?_
            rw [← h.live_iff hlink hmem hlive]
            constructor
            · rintro ⟨bytes, hheld, hcopy⟩ _ _
              exact hcopy.trans hheld.symm
            · exact fun hown => ⟨value, rfl, hown hmem rfl⟩
          · rw [visit_full hlive hmem]
            exact (and_iff_left fun hin => absurd hin hmem).symm

end Invariant

/-- Whatever the connections call, whatever time passes and whatever is evicted. -/
theorem coherent_run {registry : ToolRegistry} {s t : State} {ops : List Op} (h : Inv registry s)
    (hrun : Run (step registry) (Small registry) s ops t) :
    (∀ reference ∈ t.references, reference.Coherent) ↔
      (∀ reference ∈ s.references, reference.Coherent) ∧
        Run (step registry) (Undisturbed registry) s ops t :=
  hrun.good_iff (fun _ _ _ hinv hsmall hstep => hinv.step hsmall hstep)
    (fun _ _ _ hinv _ hstep => coherent_step hinv hstep) h

omit [Externals] in
/-- A call that the cache does not answer, from beginning to end. -/
def missedCall (conn : Nat) : List Op :=
  [.call conn "t" .null, .lookup conn, .run conn 0 [], .receive conn []]

omit [Externals] in
/-- The first connection calls, time passes, the second one calls, and the first one calls again. -/
def callsApart (elapsed : Nat) : List Op :=
  missedCall 0 ++ .tick elapsed :: missedCall 1 ++ [.call 0 "t" .null, .lookup 0]

omit [Externals] in
/-- A call that the cache answers in between. -/
def callsTogether : List Op :=
  missedCall 0 ++ [.call 1 "t" .null, .lookup 1, .receive 1 [], .call 0 "t" .null, .lookup 0]

/-- What is to be seen of a reference. -/
def Reference.view (reference : Reference) : Nat × Option Bytes × Option Bytes :=
  (reference.conn, reference.held, reference.copy)

omit [Externals] in
/-- A call of the one tool, or no new call. -/
def Op.plain : Op → Bool
  | .call _ "t" .null => true
  | .call _ _ _ => false
  | _ => true

omit [Externals] in
theorem small_of_plain : letI : Externals := .oneTool
    ∀ {op : Op}, op.plain = true → ∀ s, Small oneToolServer.registry s op := by
  let _ : Externals := .oneTool
  intro op hplain s
  cases op with
  | call conn name args =>
      unfold Op.plain at hplain
      split at hplain
      · next heq =>
          obtain ⟨_, rfl, rfl⟩ := Op.call.inj heq
          exact ⟨by decide, by decide +kernel⟩
      · cases hplain
      · next _ hnot => exact (hnot conn name args rfl).elim
  | _ => trivial

omit [Externals] in
/-- Runs of calls of the one tool, by evaluation. -/
theorem run_oneTool : letI : Externals := .oneTool
    ∀ {ops : List Op} {views : List (Nat × Option Bytes × Option Bytes)},
      (exec (step oneToolServer.registry) (fun _ op => op.plain) start ops).map
        (fun s => s.references.map Reference.view) = some views →
      ∃ s, Run (step oneToolServer.registry) (Small oneToolServer.registry) start ops s ∧
        s.references.map Reference.view = views := by
  let _ : Externals := .oneTool
  intro ops views hexec
  obtain ⟨s, hs, hviews⟩ := Option.map_eq_some_iff.mp hexec
  exact ⟨s, (run_of_exec hs).weaken fun t op hplain => small_of_plain hplain t, hviews⟩

omit [Externals] in
def oneResult : Bytes := utf8 "\x7b\"content\":[],\"isError\":false\x7d"

end Coherence

end Ohmcp
