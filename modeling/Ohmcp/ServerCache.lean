import Ohmcp.Answering
import Ohmcp.Transition
import Mathlib.Logic.Function.Basic

/-! The result cache the connections of one server share. A call visits it twice, before and after
the run of its tool, and anything may happen in between; still every result it gives was produced by
the tool that was asked for, from the same arguments, and not long ago. -/

open Transition

namespace Ohmcp

variable [Externals]

omit [Externals] in
theorem utf8_injective : Function.Injective utf8 := by
  intro left right h
  have hdata : left.toByteArray.data = right.toByteArray.data := Array.toList_inj.mp h
  exact String.toByteArray_inj.mp (ByteArray.ext hdata)

namespace ServerCache

/-! ### State -/

/-- A result that was put into the cache. -/
structure Stored where
  name : String
  args : Value
  occasion : Nat
  result : CallToolResult
  time : Nat

/-- A call that the cache answered, with the bytes it gave. -/
structure Hit where
  name : String
  args : Value
  answer : CallAnswer
  bytes : Bytes
  time : Nat

structure State where
  clock : Nat
  cache : ResultCache
  /-- By connection, the keys whose full result it was sent. -/
  delivered : Nat → Finset CacheKey
  /-- By connection, the call that is between its two visits. -/
  missed : Nat → Option (String × Value)
  stored : List Stored
  hits : List Hit

omit [Externals] in
def start (capacity ttl : Nat) : State := ⟨0, .new capacity ttl, fun _ => ∅, fun _ => none, [], []⟩

/-! ### Steps -/

inductive Op where
  | tick (elapsed : Nat)
  /-- A connection comes to a call: the first visit. -/
  | lookup (conn : Nat) (name : String) (args : Value)
  /-- It runs the tool: the second visit. -/
  | run (conn : Nat) (occasion : Nat) (order : List CacheKey)

/-- The first visit, of a call to a cacheable tool. -/
def visit (s : State) (conn : Nat) (name : String) (args : Value) (key : CacheKey) : State :=
  match answerCached s.clock s.cache (s.delivered conn) key with
  | (some answer, cache, delivered) =>
      { s with
        cache := cache
        delivered := Function.update s.delivered conn delivered
        hits := s.hits ++ [⟨name, args, answer, (s.cache.live s.clock key).getD [], s.clock⟩] }
  | (none, cache, _) =>
      { s with cache := cache, missed := Function.update s.missed conn (some (name, args)) }

/-- The run of the tool and the second visit. -/
def finish (registry : ToolRegistry) (s : State) (conn occasion : Nat) (order : List CacheKey)
    (name : String) (args : Value) : State :=
  let (_, cache, delivered) := runTool ⟨s.clock, s.clock, occasion, order⟩ registry s.cache
    (s.delivered conn) (toolKey registry name args) name args
  { s with
    cache := cache
    delivered := Function.update s.delivered conn delivered
    missed := Function.update s.missed conn none
    stored := match toolKey registry name args, registry.call occasion name args with
      | some _, some result => s.stored ++ [⟨name, args, occasion, result, s.clock⟩]
      | _, _ => s.stored }

def step (registry : ToolRegistry) (s : State) : Op → Option State
  | .tick elapsed => some { s with clock := s.clock + elapsed }
  | .lookup conn name args =>
      if s.missed conn = none then
        match toolKey registry name args with
        | some key => some (visit s conn name args key)
        | none => some { s with missed := Function.update s.missed conn (some (name, args)) }
      else none
  | .run conn occasion order =>
      match s.missed conn with
      | some (name, args) => some (finish registry s conn occasion order name args)
      | none => none

/-- A call during which no other connection is at work takes the visits `answerCall` takes. -/
theorem exists_run_answerCall (registry : ToolRegistry) (s : State) (conn occasion : Nat)
    (order : List CacheKey) (name : String) (args : Value) (hidle : s.missed conn = none) :
    let outcome := answerCall ⟨s.clock, s.clock, occasion, order⟩ registry s.cache
      (s.delivered conn) name args
    ∃ ops t, Run (step registry) Free s ops t ∧ t.clock = s.clock ∧ t.missed conn = none ∧
      t.cache = outcome.2.1 ∧ t.delivered = Function.update s.delivered conn outcome.2.2 := by
  intro outcome
  have hfinish : ∀ u : State, u.missed conn = some (name, args) → u.clock = s.clock →
      u.delivered = s.delivered →
      step registry s (.lookup conn name args) = some u →
      outcome = runTool ⟨u.clock, u.clock, occasion, order⟩ registry u.cache (u.delivered conn)
        (toolKey registry name args) name args →
      ∃ ops t, Run (step registry) Free s ops t ∧ t.clock = s.clock ∧ t.missed conn = none ∧
        t.cache = outcome.2.1 ∧ t.delivered = Function.update s.delivered conn outcome.2.2 := by
    intro u hmissed hclock hdelivered hstep houtcome
    have hrun : step registry u (.run conn occasion order) =
        some (finish registry u conn occasion order name args) := by
      rw [step.eq_def]
      dsimp only
      rw [hmissed]
    refine ⟨_, _, .cons hstep trivial (.cons hrun trivial (.nil _)), hclock, ?_, ?_, ?_⟩
    · exact Function.update_self ..
    · rw [houtcome]
      rfl
    · rw [houtcome, ← hdelivered]
      rfl
  cases hkey : toolKey registry name args with
  | none =>
      refine hfinish { s with missed := Function.update s.missed conn (some (name, args)) }
        (Function.update_self ..) rfl rfl ?_ ?_
      · rw [step, if_pos hidle, hkey]
      · rw [hkey]
        simp only [outcome, answerCall, hkey]
  | some key =>
      have hlookup : step registry s (.lookup conn name args) = some (visit s conn name args key) := by
        rw [step, if_pos hidle, hkey]
      cases hlive : s.cache.live s.clock key with
      | none =>
          have hvisit : visit s conn name args key = { s with
              cache := (s.cache.get s.clock key).2
              missed := Function.update s.missed conn (some (name, args)) } := by
            rw [visit, answerCached_of_miss hlive]
          rw [hvisit] at hlookup
          refine hfinish { s with
            cache := (s.cache.get s.clock key).2
            missed := Function.update s.missed conn (some (name, args)) }
            (Function.update_self ..) rfl rfl hlookup ?_
          rw [hkey]
          simp only [outcome, answerCall, hkey, answerCached_of_miss hlive]
      | some value =>
          refine ⟨_, _, .cons hlookup trivial (.nil _), ?_⟩
          rw [visit, answerCached_of_live hlive,
            show outcome = _ from answerCall_of_live hkey hlive]
          by_cases hmem : key ∈ s.delivered conn
          · rw [if_pos hmem, if_pos hmem]
            exact ⟨rfl, hidle, rfl, rfl⟩
          · rw [if_neg hmem, if_neg hmem]
            exact ⟨rfl, hidle, rfl, rfl⟩

/-! ### Soundness -/

/-- The calls of a run, as far as their bytes go into hashes. -/
structure Inputs (calls : Set (String × Value)) : Prop where
  injective : ∀ call ∈ calls, ∀ call' ∈ calls,
    CacheKey.compute call.1 (Externals.toVec .value call.2) =
      CacheKey.compute call'.1 (Externals.toVec .value call'.2) →
    utf8 call.1 ++ 0 :: Externals.toVec .value call.2 =
      utf8 call'.1 ++ 0 :: Externals.toVec .value call'.2
  no_nul : ∀ call ∈ calls, 0 ∉ Externals.toVec .value call.2

omit [Externals] in
/-- A step looks up none but these calls. -/
def Met (calls : Set (String × Value)) (_ : State) : Op → Prop
  | .lookup _ name args => (name, args) ∈ calls
  | _ => True

/-- The bytes come from a run of the tool with the same arguments, not longer ago than the time to
live. -/
def Served (registry : ToolRegistry) (ttl : Nat) (stored : List Stored) (hit : Hit) : Prop :=
  registry.isCacheable hit.name = true ∧
    (hit.answer = .full hit.bytes true ∨
      hit.answer = .reference (.compute hit.name (Externals.toVec .value hit.args))) ∧
    ∃ r ∈ stored, r.name = hit.name ∧
      Externals.toVec .value r.args = Externals.toVec .value hit.args ∧
      registry.call r.occasion r.name r.args = some r.result ∧
      hit.bytes = Externals.toVec .callToolResult r.result ∧
      r.time ≤ hit.time ∧ hit.time ≤ r.time + ttl

/-- The cache in every state the connections reach. -/
structure Sound (registry : ToolRegistry) (ttl : Nat) (calls : Set (String × Value)) (s : State) :
    Prop where
  entries : ∀ key value inserted, s.cache.stored key = some (value, inserted) →
    ∃ r ∈ s.stored, key = .compute r.name (Externals.toVec .value r.args) ∧
      value = Externals.toVec .callToolResult r.result ∧ inserted = r.time
  produced : ∀ r ∈ s.stored, registry.call r.occasion r.name r.args = some r.result ∧
    (r.name, r.args) ∈ calls ∧ r.time ≤ s.clock
  missed : ∀ conn call, s.missed conn = some call → call ∈ calls
  hits : ∀ hit ∈ s.hits, Served registry ttl s.stored hit
  ttl_eq : s.cache.ttl = ttl

section Invariant

variable {registry : ToolRegistry} {capacity ttl : Nat} {calls : Set (String × Value)}
  {s t : State} {conn occasion : Nat} {order : List CacheKey} {name : String} {args : Value}
  {key : CacheKey}

omit [Externals] in
theorem stored_get {cache : ResultCache} {now : Nat} {other : CacheKey} {entry : Bytes × Nat}
    (h : (cache.get now key).2.stored other = some entry) : cache.stored other = some entry := by
  by_cases hother : other = key
  · subst hother
    cases hlive : cache.live now other with
    | none =>
        rw [ResultCache.get_stored_of_miss hlive] at h
        cases h
    | some value =>
        rw [ResultCache.get_stored_of_live hlive] at h
        exact h
  · rw [ResultCache.get_stored_of_ne hother] at h
    exact h

/-- Equal keys mean equal names and equal argument bytes. -/
theorem Inputs.eq_of_key (hinputs : Inputs calls) {call call' : String × Value}
    (hcall : call ∈ calls) (hcall' : call' ∈ calls)
    (hkey : CacheKey.compute call.1 (Externals.toVec .value call.2) =
      CacheKey.compute call'.1 (Externals.toVec .value call'.2)) :
    call.1 = call'.1 ∧ Externals.toVec .value call.2 = Externals.toVec .value call'.2 := by
  obtain ⟨hname, hargs⟩ := eq_of_append_zero_append (hinputs.no_nul call hcall)
    (hinputs.no_nul call' hcall') (hinputs.injective call hcall call' hcall' hkey)
  exact ⟨utf8_injective hname, hargs⟩

theorem Served.mono {stored stored' : List Stored} (hsub : stored ⊆ stored') {hit : Hit}
    (h : Served registry ttl stored hit) : Served registry ttl stored' hit := by
  obtain ⟨hcacheable, hanswer, r, hr, hrest⟩ := h
  exact ⟨hcacheable, hanswer, r, hsub hr, hrest⟩

theorem isCacheable_of_toolKey (hkey : toolKey registry name args = some key) :
    registry.isCacheable name = true ∧ key = .compute name (Externals.toVec .value args) := by
  unfold toolKey at hkey
  split_ifs at hkey with hcacheable
  exact ⟨hcacheable, (Option.some.inj hkey).symm⟩

theorem sound_start (registry : ToolRegistry) (capacity ttl : Nat)
    (calls : Set (String × Value)) : Sound registry ttl calls (start capacity ttl) where
  entries _ _ _ h := nomatch h
  produced _ h := absurd h List.not_mem_nil
  missed _ _ h := nomatch h
  hits _ h := absurd h List.not_mem_nil
  ttl_eq := rfl

/-- What the cache gives for a call was produced by the tool of that name, from the same argument
bytes, and is not too old. -/
theorem Sound.served (h : Sound registry ttl calls s) (hinputs : Inputs calls)
    (hcall : (name, args) ∈ calls) (hkey : toolKey registry name args = some key) {value : Bytes}
    (hlive : s.cache.live s.clock key = some value) {answer : CallAnswer}
    (hanswer : answer = .full value true ∨ answer = .reference key) :
    Served registry ttl s.stored ⟨name, args, answer, value, s.clock⟩ := by
  obtain ⟨hcacheable, hcompute⟩ := isCacheable_of_toolKey hkey
  obtain ⟨inserted, hstored, hfresh⟩ := ResultCache.exists_of_live hlive
  obtain ⟨r, hr, hown, hvalue, htime⟩ := h.entries key value inserted hstored
  obtain ⟨hresult, hmem, hle⟩ := h.produced r hr
  have hsame : CacheKey.compute r.name (Externals.toVec .value r.args) =
      CacheKey.compute name (Externals.toVec .value args) := hown.symm.trans hcompute
  obtain ⟨hname, hargs⟩ := hinputs.eq_of_key hmem hcall hsame
  refine ⟨hcacheable, hcompute ▸ hanswer, r, hr, hname, hargs, hresult, hvalue, hle, ?_⟩
  rw [h.ttl_eq, htime] at hfresh
  change s.clock ≤ r.time + ttl
  omega

omit [Externals] in
theorem missed_update (h : ∀ conn call, s.missed conn = some call → call ∈ calls) (conn : Nat)
    (now : Option (String × Value)) (hnow : ∀ call, now = some call → call ∈ calls) :
    ∀ other call, Function.update s.missed conn now other = some call → call ∈ calls := by
  intro other call hmissed
  by_cases hother : other = conn
  · subst hother
    rw [Function.update_self] at hmissed
    exact hnow call hmissed
  · rw [Function.update_of_ne hother] at hmissed
    exact h other call hmissed

theorem Sound.visit (h : Sound registry ttl calls s) (hinputs : Inputs calls)
    (hcall : (name, args) ∈ calls) (hkey : toolKey registry name args = some key) (conn : Nat) :
    Sound registry ttl calls (visit s conn name args key) := by
  have hentries : ∀ other value inserted,
      (s.cache.get s.clock key).2.stored other = some (value, inserted) →
      ∃ r ∈ s.stored, other = .compute r.name (Externals.toVec .value r.args) ∧
        value = Externals.toVec .callToolResult r.result ∧ inserted = r.time :=
    fun other value inserted hget => h.entries other value inserted (stored_get hget)
  have httl : (s.cache.get s.clock key).2.ttl = ttl := ResultCache.get_ttl.trans h.ttl_eq
  have hserved : ∀ {value answer}, s.cache.live s.clock key = some value →
      (answer = .full value true ∨ answer = .reference key) →
      ∀ hit ∈ s.hits ++ [⟨name, args, answer, (some value).getD [], s.clock⟩],
        Served registry ttl s.stored hit := by
    intro value answer hlive hanswer
    exact List.forall_mem_append.mpr
      ⟨h.hits, List.forall_mem_singleton.mpr (h.served hinputs hcall hkey hlive hanswer)⟩
  unfold ServerCache.visit
  cases hlive : s.cache.live s.clock key with
  | none =>
      rw [answerCached_of_miss hlive]
      refine ⟨hentries, h.produced, missed_update h.missed conn _ ?_, h.hits, httl⟩
      rintro call ⟨rfl⟩
      exact hcall
  | some value =>
      rw [answerCached_of_live hlive]
      by_cases hmem : key ∈ s.delivered conn
      · rw [if_pos hmem]
        exact ⟨hentries, h.produced, h.missed, hserved hlive (.inr rfl), httl⟩
      · rw [if_neg hmem]
        exact ⟨hentries, h.produced, h.missed, hserved hlive (.inl rfl), httl⟩

theorem Sound.finish (h : Sound registry ttl calls s) (hcall : (name, args) ∈ calls)
    (conn occasion : Nat) (order : List CacheKey) :
    Sound registry ttl calls (finish registry s conn occasion order name args) := by
  have hmissed := missed_update h.missed conn none nofun
  unfold ServerCache.finish runTool
  dsimp only
  cases hresult : registry.call occasion name args with
  | none =>
      cases toolKey registry name args with
      | none => exact ⟨h.entries, h.produced, hmissed, h.hits, h.ttl_eq⟩
      | some key => exact ⟨h.entries, h.produced, hmissed, h.hits, h.ttl_eq⟩
  | some result =>
      cases hkey : toolKey registry name args with
      | none => exact ⟨h.entries, h.produced, hmissed, h.hits, h.ttl_eq⟩
      | some key =>
          have hgrown : s.stored ⊆ s.stored ++ [⟨name, args, occasion, result, s.clock⟩] :=
            List.subset_append_left _ _
          refine ⟨?_, ?_, hmissed, fun hit hhit => (h.hits hit hhit).mono hgrown,
            ResultCache.put_ttl.trans h.ttl_eq⟩
          · intro other value inserted hstored
            by_cases hother : other = key
            · subst hother
              rw [ResultCache.put_stored_self] at hstored
              cases hstored
              exact ⟨_, List.mem_append_right _ (List.mem_singleton_self _),
                (isCacheable_of_toolKey hkey).2, rfl, rfl⟩
            · obtain ⟨r, hr, hrest⟩ := h.entries other value inserted
                (ResultCache.put_stored_eq_some hother hstored)
              exact ⟨r, hgrown hr, hrest⟩
          · exact List.forall_mem_append.mpr
              ⟨h.produced, List.forall_mem_singleton.mpr ⟨hresult, hcall, le_rfl⟩⟩

theorem Sound.step (h : Sound registry ttl calls s) (hinputs : Inputs calls) {op : Op}
    (hmet : Met calls s op) (hstep : step registry s op = some t) :
    Sound registry ttl calls t := by
  cases op with
  | tick elapsed =>
      obtain rfl := Option.some.inj hstep
      refine ⟨h.entries, ?_, h.missed, h.hits, h.ttl_eq⟩
      intro r hr
      obtain ⟨hresult, hcall, hle⟩ := h.produced r hr
      exact ⟨hresult, hcall, hle.trans (Nat.le_add_right _ _)⟩
  | lookup conn name args =>
      rw [ServerCache.step] at hstep
      split_ifs at hstep
      cases hkey : toolKey registry name args with
      | some key =>
          rw [hkey] at hstep
          obtain rfl := Option.some.inj hstep
          exact h.visit hinputs hmet hkey conn
      | none =>
          rw [hkey] at hstep
          obtain rfl := Option.some.inj hstep
          refine ⟨h.entries, h.produced, missed_update h.missed conn _ ?_, h.hits, h.ttl_eq⟩
          rintro call ⟨rfl⟩
          exact hmet
  | run conn occasion order =>
      rw [ServerCache.step.eq_def] at hstep
      dsimp only at hstep
      rcases hmissed : s.missed conn with _ | ⟨name, args⟩
      · rw [hmissed] at hstep
        cases hstep
      · rw [hmissed] at hstep
        obtain rfl := Option.some.inj hstep
        exact h.finish (h.missed conn (name, args) hmissed) conn occasion order

/-- A tool that is not cacheable is neither answered from the cache nor written to it. -/
theorem step_of_not_cacheable (hname : registry.isCacheable name = false) :
    (step registry s (.lookup conn name args) = some t →
        t.cache = s.cache ∧ t.hits = s.hits ∧ t.delivered = s.delivered) ∧
      (s.missed conn = some (name, args) → step registry s (.run conn occasion order) = some t →
        t.cache = s.cache ∧ t.hits = s.hits ∧ t.stored = s.stored) := by
  have hkey : toolKey registry name args = none := if_neg (by rw [hname]; exact Bool.false_ne_true)
  refine ⟨?_, ?_⟩
  · intro hstep
    rw [step] at hstep
    split_ifs at hstep
    rw [hkey] at hstep
    obtain rfl := Option.some.inj hstep
    exact ⟨rfl, rfl, rfl⟩
  · intro hmissed hstep
    rw [step.eq_def] at hstep
    dsimp only at hstep
    rw [hmissed] at hstep
    obtain rfl := Option.some.inj hstep
    rw [finish, hkey, runTool]
    dsimp only
    cases registry.call occasion name args with
    | none => exact ⟨rfl, rfl, rfl⟩
    | some result => exact ⟨rfl, rfl, rfl⟩

end Invariant

/-- **The server cache is sound.** Whatever the connections call, however their visits interleave, and
whatever expires or is evicted: each result the cache gave was produced by the tool of that name, from
the same argument bytes, at most the time to live ago; and a tool that is not cacheable has nothing to
do with the cache. -/
theorem cache_sound {registry : ToolRegistry} {capacity ttl : Nat} {calls : Set (String × Value)}
    (hinputs : Inputs calls) {ops : List Op} {s : State}
    (hrun : Run (step registry) (Met calls) (start capacity ttl) ops s) :
    (∀ hit ∈ s.hits, Served registry ttl s.stored hit) ∧
      ∀ conn occasion order name args t, registry.isCacheable name = false →
        (step registry s (.lookup conn name args) = some t →
            t.cache = s.cache ∧ t.hits = s.hits ∧ t.delivered = s.delivered) ∧
          (s.missed conn = some (name, args) →
            step registry s (.run conn occasion order) = some t →
            t.cache = s.cache ∧ t.hits = s.hits ∧ t.stored = s.stored) := by
  have h : Sound registry ttl calls s :=
    hrun.invariant (fun _ _ _ h hmet hstep => h.step hinputs hmet hstep)
      (sound_start registry capacity ttl calls)
  exact ⟨h.hits, fun _ _ _ _ _ _ hname => step_of_not_cacheable hname⟩

omit [Externals] in
theorem inputs_oneTool : letI : Externals := .oneTool
    Inputs {("t", .null)} := by
  let _ : Externals := .oneTool
  refine ⟨?_, ?_⟩
  · rintro call ⟨rfl⟩ call' ⟨rfl⟩ _
    rfl
  · rintro call ⟨rfl⟩
    decide

omit [Externals] in
/-- A second connection is answered with the result the first one's call produced. -/
theorem cache_sound_second :
    letI : Externals := .oneTool
    ∃ s, Run (step oneToolServer.registry) (Met {("t", .null)}) (start 65536 cacheTtl)
        [.lookup 0 "t" .null, .run 0 0 [], .lookup 1 "t" .null] s ∧
      s.hits.map Hit.bytes = [utf8 "\x7b\"content\":[],\"isError\":false\x7d"] ∧
      ∀ hit ∈ s.hits, Served oneToolServer.registry cacheTtl s.stored hit := by
  let _ : Externals := .oneTool
  obtain ⟨s, hexec, hbytes⟩ : ∃ s, exec (step oneToolServer.registry) (fun _ _ => true)
      (start 65536 cacheTtl) [.lookup 0 "t" .null, .run 0 0 [], .lookup 1 "t" .null] = some s ∧
        s.hits.map Hit.bytes = [utf8 "\x7b\"content\":[],\"isError\":false\x7d"] :=
    Option.map_eq_some_iff.mp (by decide +kernel)
  have hrun : Run (step oneToolServer.registry) (Met {("t", .null)}) (start 65536 cacheTtl)
      [.lookup 0 "t" .null, .run 0 0 [], .lookup 1 "t" .null] s := by
    refine (run_of_exec hexec).of_forall_mem fun op hop s => ?_
    rcases hop with _ | ⟨_, _ | ⟨_, _ | ⟨_, hop⟩⟩⟩
    · rfl
    · trivial
    · rfl
    · cases hop
  exact ⟨s, hrun, hbytes, (cache_sound inputs_oneTool hrun).1⟩

end ServerCache

end Ohmcp
