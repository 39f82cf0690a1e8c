import Ohmcp.PayloadPipeline
import Ohmcp.ToolRegistry
import Ohmcp.Hex
import Mathlib.Data.Finset.Insert

/-! How the server answers a tool call: from the result cache it shares among its connections, by
reference when this connection already has a full copy, or by running the tool. -/

namespace Ohmcp

variable [Externals]

/-- SHA-256 over the tool name, a zero byte and the canonical arguments. -/
def CacheKey.compute (toolName : String) (canonicalArgs : Bytes) : CacheKey :=
  ⟨Externals.sha256 (utf8 toolName ++ 0 :: canonicalArgs)⟩

/-- The key of a call, for cacheable tools only. -/
def toolKey (registry : ToolRegistry) (name : String) (args : Value) : Option CacheKey :=
  if registry.isCacheable name then some (.compute name (Externals.toVec .value args)) else none

theorem toolKey_of_cacheable {registry : ToolRegistry} {name : String}
    (h : registry.isCacheable name = true) (args : Value) :
    toolKey registry name args = some (.compute name (Externals.toVec .value args)) := if_pos h

omit [Externals] in
/-- The zero byte separates the name from arguments without one. -/
theorem eq_of_append_zero_append {name name' args args' : Bytes} (hargs : 0 ∉ args)
    (hargs' : 0 ∉ args') (h : name ++ 0 :: args = name' ++ 0 :: args') :
    name = name' ∧ args = args' := by
  rcases List.append_eq_append_iff.mp h with ⟨mid, hname, hrest⟩ | ⟨mid, hname, hrest⟩
  · cases mid with
    | nil =>
        rw [List.append_nil] at hname
        exact ⟨hname.symm, (List.cons.inj hrest).2⟩
    | cons b mid =>
        refine absurd ?_ hargs
        rw [(List.cons.inj hrest).2]
        simp
  · cases mid with
    | nil =>
        rw [List.append_nil] at hname
        exact ⟨hname, (List.cons.inj hrest).2.symm⟩
    | cons b mid =>
        refine absurd ?_ hargs'
        rw [(List.cons.inj hrest).2]
        simp

inductive CallAnswer where
  | reference (key : CacheKey)
  | full (body : Bytes) (cacheable : Bool)
  | unknown
  deriving DecidableEq

/-- The instants and choices outside the program's control while one frame is processed: when the
cache is read and when a result is put, what tells runs of one handler apart, and the order in which
the cache's hash map enumerates its keys. -/
structure Moment where
  now : Nat
  putNow : Nat
  occasion : Nat
  order : List CacheKey

/-- The first visit to the cache. -/
def answerCached (now : Nat) (cache : ResultCache) (delivered : Finset CacheKey) (key : CacheKey) :
    Option CallAnswer × ResultCache × Finset CacheKey :=
  match cache.get now key with
  | (none, cache) => (none, cache, delivered)
  | (some bytes, cache) =>
      if key ∈ delivered then (some (.reference key), cache, delivered)
      else (some (.full bytes true), cache, insert key delivered)

/-- The run of the tool, and the second visit to the cache. -/
def runTool (moment : Moment) (registry : ToolRegistry) (cache : ResultCache)
    (delivered : Finset CacheKey) (key : Option CacheKey) (name : String) (args : Value) :
    CallAnswer × ResultCache × Finset CacheKey :=
  match registry.call moment.occasion name args with
  | none => (.unknown, cache, delivered)
  | some result =>
      let bytes := Externals.toVec .callToolResult result
      match key with
      | some key =>
          (.full bytes true, cache.put moment.putNow moment.order key bytes, insert key delivered)
      | none => (.full bytes false, cache, delivered)

def answerCall (moment : Moment) (registry : ToolRegistry) (cache : ResultCache)
    (delivered : Finset CacheKey) (name : String) (args : Value) :
    CallAnswer × ResultCache × Finset CacheKey :=
  match toolKey registry name args with
  | none => runTool moment registry cache delivered none name args
  | some key =>
      match answerCached moment.now cache delivered key with
      | (some answer, cache, delivered) => (answer, cache, delivered)
      | (none, cache, delivered) => runTool moment registry cache delivered (some key) name args

section Answer

variable {moment : Moment} {registry : ToolRegistry} {cache : ResultCache}
  {delivered : Finset CacheKey} {name : String} {args : Value} {key : CacheKey}

omit [Externals] in
theorem answerCached_of_miss {now : Nat} (h : cache.live now key = none) :
    answerCached now cache delivered key = (none, (cache.get now key).2, delivered) := by
  rw [← ResultCache.get_fst] at h
  unfold answerCached
  rw [show cache.get now key = (none, (cache.get now key).2) from Prod.ext h rfl]

omit [Externals] in
theorem answerCached_of_live {now : Nat} {bytes : Bytes} (h : cache.live now key = some bytes) :
    answerCached now cache delivered key =
      if key ∈ delivered then (some (.reference key), (cache.get now key).2, delivered)
      else (some (.full bytes true), (cache.get now key).2, insert key delivered) := by
  rw [← ResultCache.get_fst] at h
  unfold answerCached
  rw [show cache.get now key = (some bytes, (cache.get now key).2) from Prod.ext h rfl]

/-- A tool that is not cacheable leaves the cache and the copies alone. -/
theorem answerCall_of_not_cacheable (h : registry.isCacheable name = false) :
    answerCall moment registry cache delivered name args =
      (match registry.call moment.occasion name args with
        | none => .unknown
        | some result => .full (Externals.toVec .callToolResult result) false,
      cache, delivered) := by
  have hkey : toolKey registry name args = none := if_neg (by rw [h]; exact Bool.false_ne_true)
  simp only [answerCall, hkey, runTool]
  cases registry.call moment.occasion name args <;> rfl

/-- A cacheable tool whose result the cache does not have is run. -/
theorem answerCall_of_miss (hkey : toolKey registry name args = some key)
    (hmiss : cache.live moment.now key = none) {result : CallToolResult}
    (hcall : registry.call moment.occasion name args = some result) :
    answerCall moment registry cache delivered name args =
      (.full (Externals.toVec .callToolResult result) true,
        (cache.get moment.now key).2.put moment.putNow moment.order key
          (Externals.toVec .callToolResult result),
        insert key delivered) := by
  simp only [answerCall, hkey, answerCached_of_miss hmiss, runTool, hcall]

/-- A result the cache has goes out by reference exactly when this connection has a copy. -/
theorem answerCall_of_live (hkey : toolKey registry name args = some key) {bytes : Bytes}
    (hlive : cache.live moment.now key = some bytes) :
    answerCall moment registry cache delivered name args =
      if key ∈ delivered then (.reference key, (cache.get moment.now key).2, delivered)
      else (.full bytes true, (cache.get moment.now key).2, insert key delivered) := by
  simp only [answerCall, hkey, answerCached_of_live hlive]
  by_cases h : key ∈ delivered
  · simp only [if_pos h]
  · simp only [if_neg h]

end Answer

end Ohmcp
