import Ohmcp.CacheCoherence

/-! Tool calls at the same time on one connection. The server counts a full result as delivered when it
queues it; the client has it once the request it belongs to has run on and recorded it. -/

open Transition

namespace Ohmcp

variable [Externals]

namespace Concurrent

open Coherence (Asks)

/-! ### Requests -/

inductive Task where
  | idle
  /-- The arguments as the server parses them, which serialise to the client's bytes. -/
  | asked (name : String) (args : Value)
  /-- `recv_response` has returned the frame with the answer. -/
  | handed (name : String) (args : Value) (answer : CallAnswer)
  /-- The response is unwrapped, and its body still to be recorded if there is a key. -/
  | opened (body : Bytes) (key : Option CacheKey)
  | done (result : Except RequestError Bytes)

/-- A reference that a request unwraps, with the bytes that were delivered under its key. -/
structure Resolution where
  key : CacheKey
  delivered : Option Bytes
  result : Except RequestError (Bytes × Option CacheKey)

def Resolution.Resolves (resolution : Resolution) : Prop :=
  ∃ bytes, resolution.delivered = some bytes ∧ resolution.result = .ok (bytes, none)

structure State where
  /-- The cache of the server. -/
  cache : ResultCache
  delivered : Finset CacheKey
  /-- The cache of the client. -/
  client : ResultCache
  /-- The requests the server has not processed. -/
  uplink : List (UInt64 × String × Value)
  /-- The answers nobody has read. -/
  downlink : List (UInt64 × CallAnswer)
  tasks : UInt64 → Task
  /-- By key, the full result that was delivered, and the request it answers. -/
  owner : CacheKey → Option (UInt64 × Bytes)
  resolutions : List Resolution

omit [Externals] in
def start (cache : ResultCache) : State where
  cache := cache
  delivered := ∅
  client := .new 4096 cacheTtl
  uplink := []
  downlink := []
  tasks _ := .idle
  owner _ := none
  resolutions := []

/-- What unwrapping makes of an answer, and the client's cache after it. -/
def openAnswer (cache : ResultCache) (now : Nat) (name : String) (cacheKey : Option CacheKey) :
    CallAnswer → Except RequestError (Bytes × Option CacheKey) × ResultCache
  | .reference key =>
      ((cache.live now key).elim (.error (.text "cache ref miss")) fun value => .ok (value, none),
        (cache.get now key).2)
  | .full body cacheable => (.ok (body, if cacheable then cacheKey else none), cache)
  | .unknown =>
      (.error (.server (Externals.toVec .errorBody ⟨-32601, "unknown tool: " ++ name, none⟩)), cache)

/-- It is what unwrapping makes of the frame that carries the answer. -/
theorem openResponse_answer {session : Session} {id : UInt64} {name : String} {answer : CallAnswer}
    {key : Option Bytes32} {client : PayloadPipeline} {resolved : Frame}
    (hopens : (answerShipment session id name answer).Opens key resolved)
    (hkey : client.cipherKey = key) (now : Nat) (cacheKey : Option CacheKey) :
    openResponse client now cacheKey resolved =
      ((openAnswer client.cache now name cacheKey answer).1,
        { client with cache := (openAnswer client.cache now name cacheKey answer).2 }) := by
  cases answer with
  | reference referred => exact openResponse_reference hopens hkey rfl rfl now cacheKey
  | full body cacheable => exact openResponse_body hopens hkey rfl rfl now cacheKey
  | unknown =>
      have hunwrap := hopens.unwrap_eq client now hkey
      rw [openResponse, hunwrap]
      simp only [hopens.msgType_eq]
      rfl

omit [Externals] in
/-- The client's cache after a body is recorded. -/
def recordAnswer (cache : ResultCache) (putNow : Nat) (order : List CacheKey) (body : Bytes) :
    Option CacheKey → ResultCache
  | some key => cache.put putNow order key body
  | none => cache

omit [Externals] in
theorem recordBody_answer (client : PayloadPipeline) (putNow : Nat) (order : List CacheKey)
    (body : Bytes) (key : Option CacheKey) : recordBody client putNow order body key =
      { client with cache := recordAnswer client.cache putNow order body key } := by
  cases key <;> rfl

inductive Op where
  | send (id : UInt64) (name : String) (args : Value)
  /-- The server answers the next request. -/
  | serve (moment : Moment)
  /-- Whoever has the reader takes the next answer and hands it to its request. -/
  | read
  | unwrap (id : UInt64) (now : Nat)
  | remember (id : UInt64) (putNow : Nat) (order : List CacheKey)

/-- The delivery of an answer, if it is a full result that is cached. -/
def State.deliver (s : State) (id : UInt64) (key : Option CacheKey) :
    CallAnswer → CacheKey → Option (UInt64 × Bytes)
  | .full body true =>
      match key with
      | some key => Function.update s.owner key (some (id, body))
      | none => s.owner
  | _ => s.owner

omit [Externals] in
def State.resolve (s : State) (result : Except RequestError (Bytes × Option CacheKey)) :
    CallAnswer → List Resolution
  | .reference key => s.resolutions ++ [⟨key, (s.owner key).map Prod.snd, result⟩]
  | _ => s.resolutions

omit [Externals] in
/-- What a request goes on to after unwrapping. -/
def opening : Except RequestError (Bytes × Option CacheKey) → Task
  | .ok (body, key) => .opened body key
  | .error e => .done (.error e)

def step (registry : ToolRegistry) (s : State) : Op → Option State
  | .send id name args =>
      match s.tasks id with
      | .idle => some { s with
          uplink := s.uplink ++ [(id, name, args)]
          tasks := Function.update s.tasks id (.asked name args) }
      | _ => none
  | .serve moment =>
      match s.uplink with
      | [] => none
      | (id, name, args) :: uplink =>
          let outcome := answerCall moment registry s.cache s.delivered name args
          some { s with
            uplink := uplink
            downlink := s.downlink ++ [(id, outcome.1)]
            cache := outcome.2.1
            delivered := outcome.2.2
            owner := s.deliver id (toolKey registry name args) outcome.1 }
  | .read =>
      match s.downlink with
      | [] => none
      | (id, answer) :: downlink =>
          match s.tasks id with
          | .asked name args => some { s with
              downlink := downlink
              tasks := Function.update s.tasks id (.handed name args answer) }
          | _ => some { s with downlink := downlink }
  | .unwrap id now =>
      match s.tasks id with
      | .handed name args answer =>
          let opened := openAnswer s.client now name (callToolKey name args) answer
          some { s with
            client := opened.2
            resolutions := s.resolve opened.1 answer
            tasks := Function.update s.tasks id (opening opened.1) }
      | _ => none
  | .remember id putNow order =>
      match s.tasks id with
      | .opened body key => some { s with
          client := recordAnswer s.client putNow order body key
          tasks := Function.update s.tasks id (.done (.ok body)) }
      | _ => none

/-- Calls to cacheable tools with arguments below the threshold; what is looked up has not expired, and
nothing is evicted. -/
def Meets (registry : ToolRegistry) (s : State) : Op → Prop
  | .send _ name args => Asks registry name args
  | .serve moment => ∀ id name args uplink key, s.uplink = (id, name, args) :: uplink →
      toolKey registry name args = some key → s.cache.Steady moment.now moment.order key
  | .read => True
  | .unwrap id now => ∀ name args key entry, s.tasks id = .handed name args (.reference key) →
      s.client.stored key = some entry → now - entry.2 ≤ s.client.ttl
  | .remember id _ order => ∀ body key, s.tasks id = .opened body (some key) →
      s.client.evicted order key = none

omit [Externals] in
/-- A reference is unwrapped only after the request that the full result went to is over. -/
def Ordered (s : State) : Op → Prop
  | .unwrap id _ => ∀ name args key, s.tasks id = .handed name args (.reference key) →
      ∀ first body, s.owner key = some (first, body) → ∃ result, s.tasks first = .done result
  | _ => True

/-! ### Where a full result is -/

/-- The full result of a key, on its way from the server's queue to the client's cache. -/
inductive Carries (s : State) (id : UInt64) (key : CacheKey) (value : Bytes) : Prop where
  | sent {name : String} {args : Value} (htask : s.tasks id = .asked name args)
      (hkey : callToolKey name args = some key) (hmem : (id, .full value true) ∈ s.downlink)
  | handed {name : String} {args : Value}
      (htask : s.tasks id = .handed name args (.full value true))
      (hkey : callToolKey name args = some key)
  | opened (htask : s.tasks id = .opened value (some key))
  | recorded (htask : s.tasks id = .done (.ok value))
      (hstored : ∃ since, s.client.stored key = some (value, since))

/-- An answer that is on its way to a request fits what was delivered. -/
def Fits (s : State) (id : UInt64) (name : String) (args : Value) : CallAnswer → Prop
  | .full value cacheable => cacheable = true ∧ ∃ key, callToolKey name args = some key ∧
      key ∈ s.delivered ∧ s.owner key = some (id, value)
  | .reference key => key ∈ s.delivered
  | .unknown => False

/-- What a request is doing fits what was delivered. -/
def Sound (registry : ToolRegistry) (s : State) (id : UInt64) : Task → Prop
  | .asked name args => Asks registry name args
  | .handed name args answer => Asks registry name args ∧ Fits s id name args answer
  | .opened body (some key) => key ∈ s.delivered ∧ s.owner key = some (id, body)
  | _ => True

structure Inv (registry : ToolRegistry) (s : State) : Prop where
  server : ∀ key ∈ s.delivered, ∃ entry, s.cache.stored key = some entry
  carried : ∀ key ∈ s.delivered, ∃ id value, s.owner key = some (id, value) ∧
    Carries s id key value
  client : ∀ key value since, s.client.stored key = some (value, since) → key ∈ s.delivered ∧
    ∃ id result, s.owner key = some (id, value) ∧ s.tasks id = .done result
  uplink : ∀ id name args, (id, name, args) ∈ s.uplink → s.tasks id = .asked name args
  downlink : ∀ id answer, (id, answer) ∈ s.downlink → ∃ name args, s.tasks id = .asked name args ∧
    Fits s id name args answer
  sound : ∀ id, Sound registry s id (s.tasks id)
  once : (s.uplink.map Prod.fst ++ s.downlink.map Prod.fst).Nodup

section Invariant

variable {registry : ToolRegistry} {s t : State} {id : UInt64} {key : CacheKey} {value : Bytes}

theorem inv_start (registry : ToolRegistry) (cache : ResultCache) : Inv registry (start cache) where
  server key h := absurd h (Finset.notMem_empty key)
  carried key h := absurd h (Finset.notMem_empty key)
  client _ _ _ h := by cases h
  uplink _ _ _ h := absurd h List.not_mem_nil
  downlink _ _ h := absurd h List.not_mem_nil
  sound _ := trivial
  once := List.nodup_nil

theorem Fits.mono {name : String} {args : Value} {answer : CallAnswer}
    (h : Fits s id name args answer)
    (hkept : ∀ key ∈ s.delivered, key ∈ t.delivered ∧ t.owner key = s.owner key) :
    Fits t id name args answer := by
  cases answer with
  | full value cacheable =>
      obtain ⟨hcacheable, key, hkey, hmem, howner⟩ := h
      exact ⟨hcacheable, key, hkey, (hkept key hmem).1, (hkept key hmem).2.trans howner⟩
  | reference key => exact (hkept key h).1
  | unknown => exact h

theorem Sound.mono {task : Task} (h : Sound registry s id task)
    (hkept : ∀ key ∈ s.delivered, key ∈ t.delivered ∧ t.owner key = s.owner key) :
    Sound registry t id task := by
  cases task with
  | handed name args answer => exact ⟨h.1, h.2.mono hkept⟩
  | opened body key =>
      cases key with
      | none => trivial
      | some key => exact ⟨(hkept key h.1).1, (hkept key h.1).2.trans h.2⟩
  | asked name args => exact h
  | idle => trivial
  | done result => trivial

/-- A result stays where it is while its request does. -/
theorem Carries.mono (h : Carries s id key value) (htask : t.tasks id = s.tasks id)
    (hdownlink : (id, .full value true) ∈ s.downlink → (id, .full value true) ∈ t.downlink)
    (hclient : ∀ since, s.client.stored key = some (value, since) →
      ∃ since, t.client.stored key = some (value, since)) : Carries t id key value := by
  cases h with
  | sent hasked hkey hmem => exact .sent (htask.trans hasked) hkey (hdownlink hmem)
  | handed hhanded hkey => exact .handed (htask.trans hhanded) hkey
  | opened hopened => exact .opened (htask.trans hopened)
  | recorded hdone hstored =>
      obtain ⟨since, hsome⟩ := hstored
      exact .recorded (htask.trans hdone) (hclient since hsome)

/-- A request that sends is idle before. -/
theorem Carries.not_idle (h : Carries s id key value) : s.tasks id ≠ .idle := by
  intro hidle
  cases h with
  | sent htask => rw [hidle] at htask; cases htask
  | handed htask => rw [hidle] at htask; cases htask
  | opened htask => rw [hidle] at htask; cases htask
  | recorded htask => rw [hidle] at htask; cases htask

theorem Inv.send (h : Inv registry s) {name : String} {args : Value} (hidle : s.tasks id = .idle)
    (hasks : Asks registry name args) : Inv registry { s with
      uplink := s.uplink ++ [(id, name, args)]
      tasks := Function.update s.tasks id (.asked name args) } := by
  have hother : ∀ {other}, s.tasks other ≠ .idle →
      Function.update s.tasks id (.asked name args) other = s.tasks other := by
    intro other hne
    refine Function.update_of_ne ?_ ..
    rintro rfl
    exact hne hidle
  have hasked : ∀ {other name' args'}, s.tasks other = .asked name' args' →
      Function.update s.tasks id (.asked name args) other = .asked name' args' := by
    intro other name' args' htask
    rw [hother (by rw [htask]; exact nofun), htask]
  refine ⟨h.server, fun key hmem => ?_, fun key value since hstored => ?_,
    fun other name' args' hmem => ?_, fun other answer hmem => ?_, fun other => ?_, ?_⟩
  · obtain ⟨other, value, howner, hcarries⟩ := h.carried key hmem
    exact ⟨other, value, howner, hcarries.mono (hother hcarries.not_idle) (fun h => h)
      fun since hstored => ⟨since, hstored⟩⟩
  · obtain ⟨hmem, other, result, howner, htask⟩ := h.client key value since hstored
    exact ⟨hmem, other, result, howner, (hother (by rw [htask]; exact nofun)).trans htask⟩
  · rcases List.mem_append.mp hmem with hold | hnew
    · exact hasked (h.uplink other name' args' hold)
    · obtain ⟨rfl, hcall⟩ := Prod.mk.inj (List.mem_singleton.mp hnew)
      obtain ⟨rfl, rfl⟩ := Prod.mk.inj hcall
      exact Function.update_self ..
  · obtain ⟨name', args', htask, hfits⟩ := h.downlink other answer hmem
    exact ⟨name', args', hasked htask, hfits.mono fun key hkey => ⟨hkey, rfl⟩⟩
  · change Sound registry _ other (Function.update s.tasks id _ other)
    by_cases hsame : other = id
    · rw [hsame, Function.update_self]
      exact hasks
    · rw [Function.update_of_ne hsame]
      exact (h.sound other).mono fun key hkey => ⟨hkey, rfl⟩
  · have hfresh : id ∉ s.uplink.map Prod.fst ++ s.downlink.map Prod.fst := by
      intro hmem
      rcases List.mem_append.mp hmem with hup | hdown
      · obtain ⟨⟨other, name', args'⟩, hin, rfl⟩ := List.mem_map.mp hup
        have htask := h.uplink other name' args' hin
        rw [hidle] at htask
        cases htask
      · obtain ⟨⟨other, answer⟩, hin, rfl⟩ := List.mem_map.mp hdown
        obtain ⟨_, _, htask, _⟩ := h.downlink other answer hin
        rw [hidle] at htask
        cases htask
    change ((s.uplink ++ [(id, name, args)]).map Prod.fst ++ s.downlink.map Prod.fst).Nodup
    rw [List.map_append, List.map_singleton, List.append_assoc, List.singleton_append]
    exact (List.nodup_middle).mpr (List.nodup_cons.mpr ⟨hfresh, h.once⟩)

omit [Externals] in
theorem nodup_served {uplink : List (UInt64 × String × Value)} {downlink : List (UInt64 × CallAnswer)}
    {call : UInt64 × String × Value} (answer : CallAnswer)
    (h : ((call :: uplink).map Prod.fst ++ downlink.map Prod.fst).Nodup) :
    (uplink.map Prod.fst ++ (downlink ++ [(call.1, answer)]).map Prod.fst).Nodup := by
  rw [List.map_cons, List.cons_append, List.nodup_cons] at h
  rw [List.map_append, List.map_singleton, ← List.append_assoc]
  exact List.nodup_append_comm.mp (List.nodup_cons.mpr h)

/-- Those who are not served wait as before. -/
theorem Inv.waiting (h : Inv registry s) {call : UInt64 × String × Value}
    {uplink : List (UInt64 × String × Value)} (huplink : s.uplink = call :: uplink) :
    ∀ other name args, (other, name, args) ∈ uplink → s.tasks other = .asked name args :=
  fun other name args hmem =>
    h.uplink other name args (by rw [huplink]; exact List.mem_cons_of_mem call hmem)

/-- A call is answered by a reference. -/
theorem Inv.refer (h : Inv registry s) {name : String} {args : Value}
    {uplink : List (UInt64 × String × Value)} (huplink : s.uplink = (id, name, args) :: uplink)
    (htask : s.tasks id = .asked name args) (hmem : key ∈ s.delivered) {cache : ResultCache}
    (hcache : ∀ other ∈ s.delivered, ∃ entry, cache.stored other = some entry) :
    Inv registry { s with
      uplink := uplink
      downlink := s.downlink ++ [(id, .reference key)]
      cache := cache } := by
  have hkept : ∀ key ∈ s.delivered, key ∈ s.delivered ∧ s.owner key = s.owner key :=
    fun key hkey => ⟨hkey, rfl⟩
  have honce := h.once
  rw [huplink] at honce
  refine ⟨hcache, fun other hother => ?_, h.client, h.waiting huplink, fun other answer hin => ?_,
    fun other => (h.sound other).mono hkept, nodup_served _ honce⟩
  · obtain ⟨first, body, howner, hcarries⟩ := h.carried other hother
    exact ⟨first, body, howner, hcarries.mono rfl (List.mem_append_left _)
      fun since hstored => ⟨since, hstored⟩⟩
  · rcases List.mem_append.mp hin with hold | hnew
    · obtain ⟨name', args', htask', hfits⟩ := h.downlink other answer hold
      exact ⟨name', args', htask', hfits.mono hkept⟩
    · obtain ⟨rfl, rfl⟩ := Prod.mk.inj (List.mem_singleton.mp hnew)
      exact ⟨name, args, htask, hmem⟩

/-- A call is answered by the full result, which counts as delivered from then on. -/
theorem Inv.deliver (h : Inv registry s) {name : String} {args : Value}
    {uplink : List (UInt64 × String × Value)} (huplink : s.uplink = (id, name, args) :: uplink)
    (htask : s.tasks id = .asked name args) (hown : callToolKey name args = some key)
    (hmem : key ∉ s.delivered) {cache : ResultCache}
    (hcache : ∀ other ∈ insert key s.delivered, ∃ entry, cache.stored other = some entry)
    (value : Bytes) :
    Inv registry { s with
      uplink := uplink
      downlink := s.downlink ++ [(id, .full value true)]
      cache := cache
      delivered := insert key s.delivered
      owner := Function.update s.owner key (some (id, value)) } := by
  have hkept : ∀ other ∈ s.delivered, other ∈ insert key s.delivered ∧
      Function.update s.owner key (some (id, value)) other = s.owner other := by
    intro other hother
    refine ⟨Finset.mem_insert_of_mem hother, Function.update_of_ne ?_ ..⟩
    rintro rfl
    exact hmem hother
  have hself : Function.update s.owner key (some (id, value)) key = some (id, value) :=
    Function.update_self ..
  have honce := h.once
  rw [huplink] at honce
  refine ⟨hcache, fun other hother => ?_, fun other held since hstored => ?_, h.waiting huplink,
    fun other answer hin => ?_, fun other => (h.sound other).mono hkept, nodup_served _ honce⟩
  · rcases Finset.mem_insert.mp hother with rfl | hold
    · refine ⟨id, value, hself, .sent htask hown ?_⟩
      exact List.mem_append_right _ (List.mem_singleton_self _)
    · obtain ⟨first, body, howner, hcarries⟩ := h.carried other hold
      exact ⟨first, body, (hkept other hold).2.trans howner,
        hcarries.mono rfl (List.mem_append_left _) fun since hstored => ⟨since, hstored⟩⟩
  · obtain ⟨hold, first, result, howner, hdone⟩ := h.client other held since hstored
    exact ⟨(hkept other hold).1, first, result, (hkept other hold).2.trans howner, hdone⟩
  · rcases List.mem_append.mp hin with hold | hnew
    · obtain ⟨name', args', htask', hfits⟩ := h.downlink other answer hold
      exact ⟨name', args', htask', hfits.mono hkept⟩
    · obtain ⟨rfl, rfl⟩ := Prod.mk.inj (List.mem_singleton.mp hnew)
      exact ⟨name, args, htask, rfl, key, hown, Finset.mem_insert_self key _, hself⟩

/-- The server answers a call. -/
theorem Inv.serve (h : Inv registry s) {moment : Moment} {name : String} {args : Value}
    {uplink : List (UInt64 × String × Value)} (huplink : s.uplink = (id, name, args) :: uplink)
    (hsteady : ∀ key, toolKey registry name args = some key →
      s.cache.Steady moment.now moment.order key) :
    let outcome := answerCall moment registry s.cache s.delivered name args
    Inv registry { s with
      uplink := uplink
      downlink := s.downlink ++ [(id, outcome.1)]
      cache := outcome.2.1
      delivered := outcome.2.2
      owner := s.deliver id (toolKey registry name args) outcome.1 } := by
  intro outcome
  have htask : s.tasks id = .asked name args :=
    h.uplink id name args (by rw [huplink]; exact List.mem_cons_self)
  have hasks : Asks registry name args := by
    have hsound := h.sound id
    rw [htask] at hsound
    exact hsound
  obtain ⟨key, hkey⟩ : ∃ key, toolKey registry name args = some key := ⟨_, hasks.toolKey_eq⟩
  have hown : callToolKey name args = some key := hasks.callToolKey_eq.trans hkey
  obtain ⟨value, hanswer⟩ :
      ∃ value, CachedAnswer moment registry s.cache s.delivered name args key value outcome :=
    cachedAnswer_answerCall hkey (hsteady key hkey)
  have hcache : ∀ other ∈ insert key s.delivered, ∃ entry, outcome.2.1.stored other = some entry := by
    intro other hother
    rcases Finset.mem_insert.mp hother with rfl | hold
    · obtain ⟨inserted, hstored⟩ := hanswer.stored
      exact ⟨_, hstored⟩
    · obtain ⟨entry, hentry⟩ := h.server other hold
      exact ⟨entry, hanswer.kept other entry hentry⟩
  rw [hkey]
  by_cases hmem : key ∈ s.delivered
  · have hreference : outcome.1 = .reference key := by
      obtain ⟨entry, hentry⟩ := h.server key hmem
      exact hanswer.answer_eq.trans (if_pos ⟨hmem, by rw [hentry]; rfl⟩)
    have hdelivered : outcome.2.2 = s.delivered :=
      hanswer.delivered_eq.trans (Finset.insert_eq_of_mem hmem)
    rw [Finset.insert_eq_of_mem hmem] at hcache
    rw [hreference, hdelivered]
    exact h.refer huplink htask hmem hcache
  · have hfull : outcome.1 = .full value true :=
      hanswer.answer_eq.trans (if_neg fun hboth => hmem hboth.1)
    have hdelivered : outcome.2.2 = insert key s.delivered := hanswer.delivered_eq
    rw [hfull, hdelivered]
    exact h.deliver huplink htask hown hmem hcache value

/-- An answer is read, and handed to its request. -/
theorem Inv.read (h : Inv registry s) {answer : CallAnswer}
    {downlink : List (UInt64 × CallAnswer)} (hdownlink : s.downlink = (id, answer) :: downlink)
    {name : String} {args : Value} (htask : s.tasks id = .asked name args) :
    Inv registry { s with
      downlink := downlink
      tasks := Function.update s.tasks id (.handed name args answer) } := by
  have hsound := h.sound id
  rw [htask] at hsound
  obtain ⟨name', args', htask', hfits⟩ :=
    h.downlink id answer (by rw [hdownlink]; exact List.mem_cons_self)
  obtain ⟨rfl, rfl⟩ := Task.asked.inj (htask.symm.trans htask')
  have honce := h.once
  rw [hdownlink, List.map_cons] at honce
  obtain ⟨hfresh, hrest⟩ := List.nodup_cons.mp (List.nodup_middle.mp honce)
  have hup : ∀ {other call}, (other, call) ∈ s.uplink → other ≠ id := by
    rintro other call hin rfl
    have hmem := List.mem_map_of_mem (f := Prod.fst) hin
    exact hfresh (List.mem_append_left _ hmem)
  have hdown : ∀ {other answer'}, (other, answer') ∈ downlink → other ≠ id := by
    rintro other answer' hin rfl
    have hmem := List.mem_map_of_mem (f := Prod.fst) hin
    exact hfresh (List.mem_append_right _ hmem)
  have hkept : ∀ key ∈ s.delivered, key ∈ s.delivered ∧ s.owner key = s.owner key :=
    fun key hkey => ⟨hkey, rfl⟩
  refine ⟨h.server, fun key hmem => ?_, fun key value since hstored => ?_,
    fun other name' args' hmem => ?_, fun other answer' hmem => ?_, fun other => ?_, hrest⟩
  · obtain ⟨first, body, howner, hcarries⟩ := h.carried key hmem
    refine ⟨first, body, howner, ?_⟩
    by_cases hsame : first = id
    · subst hsame
      cases hcarries with
      | sent hasked hkey hin =>
          obtain ⟨rfl, rfl⟩ := Task.asked.inj (htask.symm.trans hasked)
          rw [hdownlink] at hin
          rcases List.mem_cons.mp hin with heq | hlater
          · obtain ⟨_, rfl⟩ := Prod.mk.inj heq
            exact .handed (Function.update_self ..) hkey
          · exact absurd rfl (hdown hlater)
      | handed hhanded => rw [htask] at hhanded; cases hhanded
      | opened hopened => rw [htask] at hopened; cases hopened
      | recorded hdone => rw [htask] at hdone; cases hdone
    · refine hcarries.mono (Function.update_of_ne hsame ..) (fun hin => ?_)
        fun since hstored => ⟨since, hstored⟩
      rw [hdownlink] at hin
      rcases List.mem_cons.mp hin with heq | hlater
      · exact absurd (Prod.mk.inj heq).1 hsame
      · exact hlater
  · obtain ⟨hmem, first, result, howner, hdone⟩ := h.client key value since hstored
    refine ⟨hmem, first, result, howner, ?_⟩
    refine (Function.update_of_ne ?_ ..).trans hdone
    rintro rfl
    rw [htask] at hdone
    cases hdone
  · exact (Function.update_of_ne (hup hmem) ..).trans (h.uplink other name' args' hmem)
  · obtain ⟨name', args', hasked, hfits'⟩ :=
      h.downlink other answer' (by rw [hdownlink]; exact List.mem_cons_of_mem _ hmem)
    exact ⟨name', args', (Function.update_of_ne (hdown hmem) ..).trans hasked, hfits'.mono hkept⟩
  · change Sound registry _ other (Function.update s.tasks id _ other)
    by_cases hsame : other = id
    · rw [hsame, Function.update_self]
      exact ⟨hsound, hfits.mono hkept⟩
    · rw [Function.update_of_ne hsame]
      exact (h.sound other).mono hkept

/-- While nothing expires, following a reference loses nothing. -/
theorem stored_openAnswer {cache : ResultCache} {now : Nat} {answer : CallAnswer}
    (hfresh : ∀ key entry, answer = .reference key → cache.stored key = some entry →
      now - entry.2 ≤ cache.ttl)
    (name : String) (cacheKey : Option CacheKey) (other : CacheKey) :
    (openAnswer cache now name cacheKey answer).2.stored other = cache.stored other := by
  cases answer with
  | reference key =>
      exact Sequential.get_stored_of_fresh (fun entry => hfresh key entry rfl) other
  | full body cacheable => rfl
  | unknown => rfl

/-- A request unwraps its answer. -/
theorem Inv.unwrap (h : Inv registry s) {name : String} {args : Value} {answer : CallAnswer}
    (htask : s.tasks id = .handed name args answer) {now : Nat}
    (hfresh : ∀ key entry, answer = .reference key → s.client.stored key = some entry →
      now - entry.2 ≤ s.client.ttl)
    (resolutions : List Resolution) :
    let opened := openAnswer s.client now name (callToolKey name args) answer
    Inv registry { s with
      client := opened.2
      resolutions := resolutions
      tasks := Function.update s.tasks id (opening opened.1) } := by
  intro opened
  have hstored : ∀ other, opened.2.stored other = s.client.stored other :=
    stored_openAnswer hfresh name (callToolKey name args)
  have hsound := h.sound id
  rw [htask] at hsound
  obtain ⟨_, hfits⟩ := hsound
  have hother : ∀ {other task}, s.tasks other = task →
      (∀ name args answer, task ≠ .handed name args answer) →
      Function.update s.tasks id (opening opened.1) other = task := by
    rintro other task rfl hne
    refine Function.update_of_ne ?_ ..
    rintro rfl
    exact hne name args answer htask
  have hkept : ∀ key ∈ s.delivered, key ∈ s.delivered ∧ s.owner key = s.owner key :=
    fun key hkey => ⟨hkey, rfl⟩
  refine ⟨h.server, fun key hmem => ?_, fun key value since hsome => ?_,
    fun other name' args' hmem => hother (h.uplink other name' args' hmem) nofun,
    fun other answer' hmem => ?_, fun other => ?_, h.once⟩
  · obtain ⟨first, body, howner, hcarries⟩ := h.carried key hmem
    refine ⟨first, body, howner, ?_⟩
    by_cases hsame : first = id
    · subst hsame
      cases hcarries with
      | sent hasked => rw [htask] at hasked; cases hasked
      | handed hhanded hkey =>
          obtain ⟨rfl, rfl, rfl⟩ := Task.handed.inj (htask.symm.trans hhanded)
          refine .opened ?_
          refine (Function.update_self ..).trans ?_
          simp only [opened, openAnswer, opening, if_true, hkey]
      | opened hopened => rw [htask] at hopened; cases hopened
      | recorded hdone => rw [htask] at hdone; cases hdone
    · refine hcarries.mono (Function.update_of_ne hsame ..) (fun hin => hin) fun since hsome => ?_
      exact ⟨since, (hstored key).trans hsome⟩
  · obtain ⟨hmem, first, result, howner, hdone⟩ :=
      h.client key value since ((hstored key).symm.trans hsome)
    exact ⟨hmem, first, result, howner, hother hdone nofun⟩
  · obtain ⟨name', args', hasked, hfits'⟩ := h.downlink other answer' hmem
    exact ⟨name', args', hother hasked nofun, hfits'.mono hkept⟩
  · change Sound registry _ other (Function.update s.tasks id (opening opened.1) other)
    by_cases hsame : other = id
    · rw [hsame, Function.update_self]
      cases answer with
      | full body cacheable =>
          obtain ⟨rfl, key, hkey, hmem, howner⟩ := hfits
          simp only [opened, openAnswer, opening, if_true, hkey]
          exact ⟨hmem, howner⟩
      | reference key =>
          simp only [opened, openAnswer]
          cases s.client.live now key with
          | none => trivial
          | some value => trivial
      | unknown => exact hfits.elim
    · rw [Function.update_of_ne hsame]
      exact (h.sound other).mono hkept

/-- A request records its body, if it is to, and is over. -/
theorem Inv.remember (h : Inv registry s) {body : Bytes} {key : Option CacheKey}
    (htask : s.tasks id = .opened body key) {order : List CacheKey}
    (hroom : ∀ own, key = some own → s.client.evicted order own = none) (putNow : Nat) :
    Inv registry { s with
      client := recordAnswer s.client putNow order body key
      tasks := Function.update s.tasks id (.done (.ok body)) } := by
  have hsound := h.sound id
  rw [htask] at hsound
  have hself : Function.update s.tasks id (.done (.ok body)) id = .done (.ok body) :=
    Function.update_self ..
  have hother : ∀ {other task}, s.tasks other = task →
      (∀ body key, task ≠ .opened body key) →
      Function.update s.tasks id (.done (.ok body)) other = task := by
    rintro other task rfl hne
    refine Function.update_of_ne ?_ ..
    rintro rfl
    exact hne body key htask
  have hkept : ∀ key ∈ s.delivered, key ∈ s.delivered ∧ s.owner key = s.owner key :=
    fun key hkey => ⟨hkey, rfl⟩
  have hsame : ∀ other, key ≠ some other →
      (recordAnswer s.client putNow order body key).stored other = s.client.stored other := by
    intro other hne
    cases key with
    | none => rfl
    | some own =>
        have hne' : other ≠ own := fun heq => hne (congrArg some heq.symm)
        exact ResultCache.put_stored_of_ne hne' (by rw [hroom own rfl]; exact nofun)
  have hown : ∀ own, key = some own →
      (recordAnswer s.client putNow order body key).stored own = some (body, putNow) := by
    rintro own rfl
    exact ResultCache.put_stored_self
  refine ⟨h.server, fun other hmem => ?_, fun other value since hsome => ?_,
    fun other name' args' hmem => hother (h.uplink other name' args' hmem) nofun,
    fun other answer' hmem => ?_, fun other => ?_, h.once⟩
  · obtain ⟨first, value, howner, hcarries⟩ := h.carried other hmem
    refine ⟨first, value, howner, ?_⟩
    by_cases hkey : key = some other
    · -- the result of this key is the one that is recorded
      subst hkey
      obtain ⟨rfl, rfl⟩ := Prod.mk.inj (Option.some.inj (howner.symm.trans hsound.2))
      exact .recorded hself ⟨putNow, hown other rfl⟩
    · have hne : first ≠ id := by
        rintro rfl
        cases hcarries with
        | sent hasked => rw [htask] at hasked; cases hasked
        | handed hhanded => rw [htask] at hhanded; cases hhanded
        | opened hopened =>
            obtain ⟨_, hsome⟩ := Task.opened.inj (htask.symm.trans hopened)
            exact hkey hsome
        | recorded hdone => rw [htask] at hdone; cases hdone
      refine hcarries.mono (Function.update_of_ne hne ..) (fun hin => hin) fun since hsome => ?_
      exact ⟨since, (hsame other hkey).trans hsome⟩
  · by_cases hkey : key = some other
    · subst hkey
      obtain ⟨rfl, _⟩ := Prod.mk.inj (Option.some.inj ((hown other rfl).symm.trans hsome))
      exact ⟨hsound.1, id, .ok body, hsound.2, hself⟩
    · obtain ⟨hmem, first, result, howner, hdone⟩ :=
        h.client other value since ((hsame other hkey).symm.trans hsome)
      exact ⟨hmem, first, result, howner, hother hdone nofun⟩
  · obtain ⟨name', args', hasked, hfits'⟩ := h.downlink other answer' hmem
    exact ⟨name', args', hother hasked nofun, hfits'.mono hkept⟩
  · change Sound registry _ other (Function.update s.tasks id (.done (.ok body)) other)
    by_cases heq : other = id
    · rw [heq, hself]
      trivial
    · rw [Function.update_of_ne heq]
      exact (h.sound other).mono hkept

theorem step_send {name : String} {args : Value}
    (hstep : step registry s (.send id name args) = some t) :
    s.tasks id = .idle ∧ t = { s with
      uplink := s.uplink ++ [(id, name, args)]
      tasks := Function.update s.tasks id (.asked name args) } := by
  cases htask : s.tasks id with
  | idle =>
      rw [step, htask] at hstep
      exact ⟨rfl, (Option.some.inj hstep).symm⟩
  | _ =>
      rw [step, htask] at hstep
      cases hstep

theorem step_serve {moment : Moment} (hstep : step registry s (.serve moment) = some t) :
    ∃ id name args uplink, s.uplink = (id, name, args) :: uplink ∧
      t = (let outcome := answerCall moment registry s.cache s.delivered name args
        { s with
          uplink := uplink
          downlink := s.downlink ++ [(id, outcome.1)]
          cache := outcome.2.1
          delivered := outcome.2.2
          owner := s.deliver id (toolKey registry name args) outcome.1 }) := by
  cases huplink : s.uplink with
  | nil =>
      rw [step, huplink] at hstep
      cases hstep
  | cons request uplink =>
      obtain ⟨id, name, args⟩ := request
      rw [step, huplink] at hstep
      exact ⟨id, name, args, uplink, rfl, (Option.some.inj hstep).symm⟩

/-- An answer that is read belongs to a request that waits for it. -/
theorem step_read (h : Inv registry s) (hstep : step registry s .read = some t) :
    ∃ id answer downlink name args, s.downlink = (id, answer) :: downlink ∧
      s.tasks id = .asked name args ∧ t = { s with
        downlink := downlink
        tasks := Function.update s.tasks id (.handed name args answer) } := by
  cases hdownlink : s.downlink with
  | nil =>
      rw [step, hdownlink] at hstep
      cases hstep
  | cons first downlink =>
      obtain ⟨id, answer⟩ := first
      obtain ⟨name, args, htask, _⟩ :=
        h.downlink id answer (by rw [hdownlink]; exact List.mem_cons_self)
      rw [step, hdownlink] at hstep
      dsimp only at hstep
      rw [htask] at hstep
      exact ⟨id, answer, downlink, name, args, rfl, htask, (Option.some.inj hstep).symm⟩

theorem step_unwrap {now : Nat} (hstep : step registry s (.unwrap id now) = some t) :
    ∃ name args answer, s.tasks id = .handed name args answer ∧
      t = (let opened := openAnswer s.client now name (callToolKey name args) answer
        { s with
          client := opened.2
          resolutions := s.resolve opened.1 answer
          tasks := Function.update s.tasks id (opening opened.1) }) := by
  cases htask : s.tasks id with
  | handed name args answer =>
      rw [step, htask] at hstep
      exact ⟨name, args, answer, rfl, (Option.some.inj hstep).symm⟩
  | _ =>
      rw [step, htask] at hstep
      cases hstep

theorem step_remember {putNow : Nat} {order : List CacheKey}
    (hstep : step registry s (.remember id putNow order) = some t) :
    ∃ body key, s.tasks id = .opened body key ∧ t = { s with
      client := recordAnswer s.client putNow order body key
      tasks := Function.update s.tasks id (.done (.ok body)) } := by
  cases htask : s.tasks id with
  | opened body key =>
      rw [step, htask] at hstep
      exact ⟨body, key, rfl, (Option.some.inj hstep).symm⟩
  | _ =>
      rw [step, htask] at hstep
      cases hstep

theorem Inv.step {op : Op} (h : Inv registry s) (hmeets : Meets registry s op)
    (hstep : step registry s op = some t) : Inv registry t := by
  cases op with
  | send id name args =>
      obtain ⟨hidle, rfl⟩ := step_send hstep
      exact h.send hidle hmeets
  | serve moment =>
      obtain ⟨id, name, args, uplink, huplink, rfl⟩ := step_serve hstep
      exact h.serve huplink fun key hkey => hmeets id name args uplink key huplink hkey
  | read =>
      obtain ⟨id, answer, downlink, name, args, hdownlink, htask, rfl⟩ := step_read h hstep
      exact h.read hdownlink htask
  | unwrap id now =>
      obtain ⟨name, args, answer, htask, rfl⟩ := step_unwrap hstep
      refine h.unwrap htask (fun key entry hanswer => ?_) _
      exact hmeets name args key entry (hanswer ▸ htask)
  | remember id putNow order =>
      obtain ⟨body, key, htask, rfl⟩ := step_remember hstep
      refine h.remember htask (fun own hown => ?_) putNow
      exact hmeets body own (hown ▸ htask)

/-- A client has the result that was delivered under a key exactly when the request it answers is
over. -/
theorem Inv.live_iff (h : Inv registry s) {now : Nat}
    (hfresh : ∀ entry, s.client.stored key = some entry → now - entry.2 ≤ s.client.ttl)
    (howner : s.owner key = some (id, value)) (hmem : key ∈ s.delivered) :
    s.client.live now key = some value ↔ ∃ result, s.tasks id = .done result := by
  constructor
  · intro hlive
    obtain ⟨since, hstored, _⟩ := ResultCache.exists_of_live hlive
    obtain ⟨_, first, result, hfirst, hdone⟩ := h.client key value since hstored
    obtain ⟨rfl, _⟩ := Prod.mk.inj (Option.some.inj (howner.symm.trans hfirst))
    exact ⟨result, hdone⟩
  · rintro ⟨result, hdone⟩
    obtain ⟨first, body, hfirst, hcarries⟩ := h.carried key hmem
    obtain ⟨rfl, rfl⟩ := Prod.mk.inj (Option.some.inj (howner.symm.trans hfirst))
    cases hcarries with
    | sent htask => rw [hdone] at htask; cases htask
    | handed htask => rw [hdone] at htask; cases htask
    | opened htask => rw [hdone] at htask; cases htask
    | recorded _ hstored =>
        obtain ⟨since, hsome⟩ := hstored
        exact ResultCache.live_eq_some hsome (hfresh (value, since) hsome)

theorem openAnswer_reference_iff {cache : ResultCache} {now : Nat} (name : String)
    (cacheKey : Option CacheKey) : (openAnswer cache now name cacheKey (.reference key)).1 =
      .ok (value, none) ↔ cache.live now key = some value := by
  change (cache.live now key).elim _ _ = _ ↔ _
  cases cache.live now key with
  | none => exact ⟨nofun, nofun⟩
  | some held =>
      constructor
      · intro heq
        exact congrArg some (Prod.mk.inj (Except.ok.inj heq)).1
      · intro heq
        rw [Option.some.inj heq]
        rfl

/-- After a step all references that were unwrapped resolve exactly if they did before and the step
unwraps one in order, if it unwraps one. -/
theorem resolves_step {op : Op} (h : Inv registry s) (hmeets : Meets registry s op)
    (hstep : Concurrent.step registry s op = some t) :
    (∀ resolution ∈ t.resolutions, resolution.Resolves) ↔
      (∀ resolution ∈ s.resolutions, resolution.Resolves) ∧ Ordered s op := by
  cases op with
  | send id name args =>
      obtain ⟨_, rfl⟩ := step_send hstep
      exact (and_iff_left trivial).symm
  | serve moment =>
      obtain ⟨id, name, args, uplink, _, rfl⟩ := step_serve hstep
      exact (and_iff_left trivial).symm
  | read =>
      obtain ⟨id, answer, downlink, name, args, _, _, rfl⟩ := step_read h hstep
      exact (and_iff_left trivial).symm
  | remember id putNow order =>
      obtain ⟨body, key, _, rfl⟩ := step_remember hstep
      exact (and_iff_left trivial).symm
  | unwrap id now =>
      obtain ⟨name, args, answer, htask, rfl⟩ := step_unwrap hstep
      have hother : (∀ key, answer ≠ .reference key) → Ordered s (.unwrap id now) := by
        intro hne name' args' key htask'
        obtain ⟨_, _, heq⟩ := Task.handed.inj (htask.symm.trans htask')
        exact absurd heq (hne key)
      cases answer with
      | full body cacheable => exact (and_iff_left (hother nofun)).symm
      | unknown => exact (and_iff_left (hother nofun)).symm
      | reference key =>
          have hsound := h.sound id
          rw [htask] at hsound
          have hmem : key ∈ s.delivered := hsound.2
          obtain ⟨first, value, howner, _⟩ := h.carried key hmem
          have honly : Ordered s (.unwrap id now) ↔ ∃ result, s.tasks first = .done result := by
            refine ⟨fun hall => hall name args key htask first value howner, ?_⟩
            intro hdone name' args' key' htask' first' value' howner'
            obtain ⟨_, _, heq⟩ := Task.handed.inj (htask.symm.trans htask')
            obtain rfl := CallAnswer.reference.inj heq
            obtain ⟨rfl, _⟩ := Prod.mk.inj (Option.some.inj (howner.symm.trans howner'))
            exact hdone
          dsimp only [State.resolve]
          rw [List.forall_mem_append, List.forall_mem_singleton, honly,
            ← h.live_iff (fun entry => hmeets name args key entry htask) howner hmem]
          refine and_congr_right fun _ => ?_
          change (∃ bytes, (s.owner key).map Prod.snd = some bytes ∧ _) ↔ _
          rw [howner]
          constructor
          · rintro ⟨bytes, hbytes, hresult⟩
            obtain rfl := Option.some.inj hbytes
            exact (openAnswer_reference_iff name (callToolKey name args)).mp hresult
          · intro hlive
            exact ⟨value, rfl, (openAnswer_reference_iff name (callToolKey name args)).mpr hlive⟩

end Invariant

/-- Whatever the order of the requests' steps. -/
theorem resolves_run {registry : ToolRegistry} {s t : State} {ops : List Op} (h : Inv registry s)
    (hrun : Run (step registry) (Meets registry) s ops t) :
    (∀ resolution ∈ t.resolutions, resolution.Resolves) ↔
      (∀ resolution ∈ s.resolutions, resolution.Resolves) ∧
        Run (step registry) Ordered s ops t :=
  hrun.good_iff (fun _ _ _ hinv hmeets hstep => hinv.step hmeets hstep)
    (fun _ _ _ hinv hmeets hstep => resolves_step hinv hmeets hstep) h

/-- **References under concurrent calls.** For any number of requests and any order of the server's
answers, the reading and the requests' own steps, all references resolve to what was delivered if and
only if each is unwrapped after the request that the full result went to is over. -/
theorem references_resolve_iff {registry : ToolRegistry} {cache : ResultCache} {ops : List Op}
    {s : State} (hrun : Run (step registry) (Meets registry) (start cache) ops s) :
    (∀ resolution ∈ s.resolutions, resolution.Resolves) ↔
      Run (step registry) Ordered (start cache) ops s := by
  rw [resolves_run (inv_start registry cache) hrun]
  exact and_iff_right fun _ hmem => absurd hmem List.not_mem_nil

/-! ### Two calls of the one tool -/

omit [Externals] in
/-- Both requests leave, both are answered, and both answers are read. -/
def bothRead : List Op :=
  [.send 1 "t" .null, .send 2 "t" .null, .serve ⟨0, 0, 0, []⟩, .serve ⟨0, 0, 0, []⟩, .read, .read]

omit [Externals] in
/-- The first request goes on first. -/
def inOrder : List Op := bothRead ++ [.unwrap 1 0, .remember 1 0 [], .unwrap 2 0]

omit [Externals] in
/-- The second request goes on first. -/
def overtaken : List Op := bothRead ++ [.unwrap 2 0]

/-- What is to be seen of a reference that was unwrapped. -/
def Resolution.view (resolution : Resolution) :
    Option Bytes × Except RequestError (Bytes × Option CacheKey) :=
  (resolution.delivered, resolution.result)

omit [Externals] in
/-- A call of the one tool, or a step at the beginning of time that has nothing to evict. -/
def Op.plain : Op → Bool
  | .send _ "t" .null => true
  | .send _ _ _ => false
  | .serve moment => moment.now = 0 ∧ moment.order = []
  | .read => true
  | .unwrap _ now => now = 0
  | .remember _ _ order => order = []

omit [Externals] in
theorem evicted_nil (cache : ResultCache) (key : CacheKey) : cache.evicted [] key = none := by
  unfold ResultCache.evicted
  split_ifs
  · rfl
  · rfl

omit [Externals] in
theorem meets_of_plain : letI : Externals := .oneTool
    ∀ {op : Op}, op.plain = true → ∀ s, Meets oneToolServer.registry s op := by
  let _ : Externals := .oneTool
  intro op hplain s
  cases op with
  | send id name args =>
      unfold Op.plain at hplain
      split at hplain
      · next heq =>
          obtain ⟨_, rfl, rfl⟩ := Op.send.inj heq
          exact ⟨by decide, by decide +kernel⟩
      · cases hplain
      · next heq => cases heq
      · next heq => cases heq
      · next heq => cases heq
      · next heq => cases heq
  | serve moment =>
      obtain ⟨hnow, horder⟩ := of_decide_eq_true hplain
      intro id name args uplink key _ _
      rw [hnow, horder]
      exact ⟨fun entry _ => (Nat.zero_sub entry.2).trans_le (Nat.zero_le _),
        fun _ => evicted_nil _ key⟩
  | read => trivial
  | unwrap id now =>
      obtain rfl := of_decide_eq_true hplain
      exact fun _ _ _ entry _ _ => (Nat.zero_sub entry.2).trans_le (Nat.zero_le _)
  | remember id putNow order =>
      obtain rfl := of_decide_eq_true hplain
      exact fun _ key _ => evicted_nil s.client key

omit [Externals] in
/-- Runs of plain steps, by evaluation. -/
theorem run_plain : letI : Externals := .oneTool
    ∀ {ops : List Op} {views : List (Option Bytes × Except RequestError (Bytes × Option CacheKey))},
      (exec (step oneToolServer.registry) (fun _ op => op.plain) (start oneToolServer.cache) ops).map
        (fun s => s.resolutions.map Resolution.view) = some views →
      ∃ s, Run (step oneToolServer.registry) (Meets oneToolServer.registry)
          (start oneToolServer.cache) ops s ∧ s.resolutions.map Resolution.view = views := by
  let _ : Externals := .oneTool
  intro ops views hexec
  obtain ⟨s, hs, hviews⟩ := Option.map_eq_some_iff.mp hexec
  exact ⟨s, (run_of_exec hs).weaken fun t op hplain => meets_of_plain hplain t, hviews⟩

omit [Externals] in
theorem references_resolve_iff_inOrder : letI : Externals := .oneTool
    ∃ s, Run (step oneToolServer.registry) (Meets oneToolServer.registry)
        (start oneToolServer.cache) inOrder s ∧
      (∃ resolution ∈ s.resolutions, resolution.result = .ok (Coherence.oneResult, none)) ∧
      Run (step oneToolServer.registry) Ordered (start oneToolServer.cache) inOrder s := by
  let _ : Externals := .oneTool
  have hexec : (exec (step oneToolServer.registry) (fun _ op => op.plain)
      (start oneToolServer.cache) inOrder).map (fun s => s.resolutions.map Resolution.view) =
        some [(some Coherence.oneResult, .ok (Coherence.oneResult, none))] := by
    decide +kernel
  obtain ⟨s, hrun, hviews⟩ := run_plain hexec
  have hmem : (some Coherence.oneResult, .ok (Coherence.oneResult, none)) ∈
      s.resolutions.map Resolution.view := by
    rw [hviews]
    exact List.mem_singleton_self _
  obtain ⟨resolution, hresolution, hview⟩ := List.mem_map.mp hmem
  refine ⟨s, hrun, ⟨resolution, hresolution, (Prod.mk.inj hview).2⟩, ?_⟩
  refine (references_resolve_iff hrun).mp fun resolution hmem => ?_
  have hview := List.mem_map_of_mem (f := Resolution.view) hmem
  rw [hviews, List.mem_singleton] at hview
  obtain ⟨hdelivered, hresult⟩ := Prod.mk.inj hview
  exact ⟨Coherence.oneResult, hdelivered, hresult⟩

omit [Externals] in
/-- The request that is answered by a reference goes on first, and misses what the other one was
delivered. -/
theorem reference_overtakes : letI : Externals := .oneTool
    ∃ s, Run (step oneToolServer.registry) (Meets oneToolServer.registry)
        (start oneToolServer.cache) overtaken s ∧
      ∃ resolution ∈ s.resolutions, resolution.delivered = some Coherence.oneResult ∧
        resolution.result = .error (.text "cache ref miss") ∧ ¬ resolution.Resolves := by
  let _ : Externals := .oneTool
  have hexec : (exec (step oneToolServer.registry) (fun _ op => op.plain)
      (start oneToolServer.cache) overtaken).map (fun s => s.resolutions.map Resolution.view) =
        some [(some Coherence.oneResult, .error (.text "cache ref miss"))] := by
    decide +kernel
  obtain ⟨s, hrun, hviews⟩ := run_plain hexec
  have hmem : (some Coherence.oneResult, .error (.text "cache ref miss")) ∈
      s.resolutions.map Resolution.view := by
    rw [hviews]
    exact List.mem_singleton_self _
  obtain ⟨resolution, hresolution, hview⟩ := List.mem_map.mp hmem
  obtain ⟨hdelivered, hresult⟩ := Prod.mk.inj hview
  refine ⟨s, hrun, resolution, hresolution, hdelivered, hresult, ?_⟩
  rintro ⟨bytes, _, hbytes⟩
  rw [hresult] at hbytes
  cases hbytes

end Concurrent

end Ohmcp
