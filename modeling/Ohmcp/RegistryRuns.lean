import Ohmcp.ToolRegistry

/-! The resources of a registry over any sequence of calls, by the registry and by the handles that
share it: the listing, the contents and the events that are broadcast. -/

namespace Ohmcp

namespace ToolRegistry

/-- `ResourceUpdater::update`: the handle shares the contents and the events of the registry. -/
def update (registry : ToolRegistry) (uri text : String) :
    Bool × Option ResourceEvent × ToolRegistry :=
  registry.updateResource uri text

/-! ### Calls -/

inductive ResourceCall where
  | registerResource (uri name mime text : String)
  | addResource (uri name mime text : String)
  | updateResource (uri text : String)
  | update (uri text : String)

structure Outcome where
  returned : Option Bool
  events : List ResourceEvent
  registry : ToolRegistry

def perform (registry : ToolRegistry) : ResourceCall → Outcome
  | .registerResource uri name mime text =>
      ⟨none, [], registry.registerResource uri name mime text⟩
  | .addResource uri name mime text =>
      let (event, registry) := registry.addResource uri name mime text
      ⟨none, [event], registry⟩
  | .updateResource uri text =>
      let (updated, event, registry) := registry.updateResource uri text
      ⟨some updated, event.toList, registry⟩
  | .update uri text =>
      let (updated, event, registry) := registry.update uri text
      ⟨some updated, event.toList, registry⟩

/-- The uris that a sequence of calls registers or adds. -/
def added : List ResourceCall → List String
  | [] => []
  | .registerResource uri _ _ _ :: calls => uri :: added calls
  | .addResource uri _ _ _ :: calls => uri :: added calls
  | .updateResource _ _ :: calls => added calls
  | .update _ _ :: calls => added calls

def uris (registry : ToolRegistry) : List String := registry.resources.map Resource.uri

/-- The listing and the contents agree. -/
structure Consistent (registry : ToolRegistry) : Prop where
  uris_nodup : registry.uris.Nodup
  mem_uris_iff : ∀ uri, uri ∈ registry.uris ↔ registry.hasResource uri = true
  mimeType_eq : ∀ resource ∈ registry.resources, ∀ contents,
    registry.readResource resource.uri = some contents → contents.mimeType = resource.mimeType

/-- An update answers whether the uri is registered and changes its text only; and whoever changes the
content of a registered uri broadcasts that. -/
structure Faithful (registry : ToolRegistry) (call : ResourceCall) : Prop where
  updates : ∀ uri text, call = .updateResource uri text ∨ call = .update uri text →
    (registry.perform call).returned = some (registry.hasResource uri) ∧
      (registry.perform call).registry.resources = registry.resources ∧
      ∀ other, (registry.perform call).registry.readResource other =
        if other = uri then (registry.readResource uri).map ({ · with text := some text })
        else registry.readResource other
  tells : ∀ uri, registry.hasResource uri = true →
    (registry.perform call).registry.readResource uri ≠ registry.readResource uri →
    .updated uri ∈ (registry.perform call).events

/-- The listing and the contents agree before and after every call, and every call is faithful. -/
def Agrees (registry : ToolRegistry) : List ResourceCall → Prop
  | [] => Consistent registry
  | call :: calls => Consistent registry ∧ Faithful registry call ∧
      Agrees (registry.perform call).registry calls

/-! ### One call -/

section Calls

variable {registry : ToolRegistry} {uri name mime text : String}

theorem uris_registerResource :
    (registry.registerResource uri name mime text).uris = registry.uris ++ [uri] := by
  rw [uris, registerResource, List.map_append]
  rfl

theorem readResource_registerResource (other : String) :
    (registry.registerResource uri name mime text).readResource other =
      if other = uri then some ⟨uri, some mime, some text, none⟩
      else registry.readResource other := by
  by_cases h : other = uri
  · subst h
    rw [if_pos rfl]
    exact AList.lookup_insert _
  · rw [if_neg h]
    exact AList.lookup_insert_ne h

theorem Consistent.registerResource (h : Consistent registry) (hnew : uri ∉ registry.uris) :
    Consistent (registry.registerResource uri name mime text) := by
  refine ⟨?_, fun other => ?_, fun resource hmem contents hread => ?_⟩
  · rw [uris_registerResource]
    exact List.nodup_append.mpr ⟨h.uris_nodup, List.nodup_singleton uri,
      fun other hother last hlast heq => hnew (List.mem_singleton.mp hlast ▸ heq ▸ hother)⟩
  · rw [uris_registerResource, List.mem_append, List.mem_singleton, h.mem_uris_iff,
      hasResource_iff, hasResource_iff, readResource_registerResource]
    by_cases heq : other = uri
    · simp [heq]
    · simp [heq]
  · rw [readResource_registerResource] at hread
    rcases List.mem_append.mp hmem with hold | hlast
    · have hne : resource.uri ≠ uri := by
        intro heq
        exact hnew (heq ▸ List.mem_map_of_mem hold)
      rw [if_neg hne] at hread
      exact h.mimeType_eq resource hold contents hread
    · obtain rfl := List.mem_singleton.mp hlast
      rw [if_pos rfl] at hread
      obtain rfl := Option.some.inj hread
      rfl

theorem updateResource_fst :
    (registry.updateResource uri text).1 = registry.hasResource uri := by
  unfold updateResource hasResource
  cases registry.resourceContents.lookup uri <;> rfl

theorem updateResource_event : (registry.updateResource uri text).2.1 =
    if registry.hasResource uri then some (.updated uri) else none := by
  unfold updateResource hasResource
  cases registry.resourceContents.lookup uri <;> rfl

theorem updateResource_resources :
    (registry.updateResource uri text).2.2.resources = registry.resources := by
  unfold updateResource
  cases registry.resourceContents.lookup uri <;> rfl

theorem readResource_updateResource (other : String) :
    (registry.updateResource uri text).2.2.readResource other =
      if other = uri then (registry.readResource uri).map ({ · with text := some text })
      else registry.readResource other := by
  unfold updateResource readResource
  cases hlookup : registry.resourceContents.lookup uri with
  | none =>
      by_cases h : other = uri
      · subst h
        rw [if_pos rfl]
        exact hlookup
      · rw [if_neg h]
  | some contents =>
      by_cases h : other = uri
      · subst h
        rw [if_pos rfl]
        exact AList.lookup_insert _
      · rw [if_neg h]
        exact AList.lookup_insert_ne h

theorem Consistent.updateResource (h : Consistent registry) :
    Consistent (registry.updateResource uri text).2.2 := by
  have huris : (registry.updateResource uri text).2.2.uris = registry.uris :=
    congrArg (List.map Resource.uri) updateResource_resources
  refine ⟨huris ▸ h.uris_nodup, fun other => ?_, fun resource hmem contents hread => ?_⟩
  · rw [huris, h.mem_uris_iff, hasResource_iff, hasResource_iff, readResource_updateResource]
    by_cases heq : other = uri
    · subst heq
      simp
    · simp [heq]
  · rw [updateResource_resources] at hmem
    rw [readResource_updateResource] at hread
    split_ifs at hread with heq
    · obtain ⟨before, hbefore, rfl⟩ := Option.map_eq_some_iff.mp hread
      exact h.mimeType_eq resource hmem before (heq ▸ hbefore)
    · exact h.mimeType_eq resource hmem contents hread

/-- Registering a new uri changes the content of no other. -/
theorem faithful_registerResource (hnew : registry.hasResource uri = false)
    (call : ResourceCall) (hcall : call = .registerResource uri name mime text ∨
      call = .addResource uri name mime text) : Faithful registry call := by
  have hafter : (registry.perform call).registry =
      registry.registerResource uri name mime text := by
    rcases hcall with rfl | rfl <;> rfl
  refine ⟨fun uri' text' hupdate => ?_, fun uri' hregistered hchanged => ?_⟩
  · rcases hcall with rfl | rfl <;> rcases hupdate with h | h <;> cases h
  · rw [hafter, readResource_registerResource] at hchanged
    split_ifs at hchanged with heq
    · rw [heq, hnew] at hregistered
      cases hregistered
    · exact absurd rfl hchanged

theorem faithful_updateResource (call : ResourceCall)
    (hcall : call = .updateResource uri text ∨ call = .update uri text) :
    Faithful registry call := by
  have hperform : registry.perform call = ⟨some (registry.updateResource uri text).1,
      (registry.updateResource uri text).2.1.toList, (registry.updateResource uri text).2.2⟩ := by
    rcases hcall with rfl | rfl <;> rfl
  refine ⟨fun uri' text' hupdate => ?_, fun uri' hregistered hchanged => ?_⟩
  · have hsame : uri' = uri ∧ text' = text := by
      rcases hcall with rfl | rfl <;> rcases hupdate with h | h <;> cases h <;> exact ⟨rfl, rfl⟩
    obtain ⟨rfl, rfl⟩ := hsame
    rw [hperform]
    exact ⟨congrArg some updateResource_fst, updateResource_resources,
      readResource_updateResource⟩
  · rw [hperform] at hchanged ⊢
    have hsame : uri' = uri := by
      by_contra hne
      exact hchanged ((readResource_updateResource uri').trans (if_neg hne))
    subst hsame
    rw [updateResource_event, if_pos hregistered]
    exact List.mem_singleton.mpr rfl

end Calls

/-! ### Whole runs -/

theorem consistent_new : Consistent new :=
  ⟨List.nodup_nil, fun _ => ⟨fun h => absurd h List.not_mem_nil, fun h => by cases h⟩,
    fun _ h => absurd h List.not_mem_nil⟩

theorem Agrees.consistent {registry : ToolRegistry} {calls : List ResourceCall}
    (h : Agrees registry calls) : Consistent registry := by
  cases calls with
  | nil => exact h
  | cons call calls => exact h.1

section Runs

variable {registry : ToolRegistry} {call : ResourceCall} {calls : List ResourceCall}
  {uri name mime text : String}

/-- A call that registers a resource, given what the calls after it come to. -/
theorem agrees_register (h : Consistent registry)
    (hcall : call = .registerResource uri name mime text ∨ call = .addResource uri name mime text)
    (ih : ∀ {registry : ToolRegistry}, Consistent registry →
      (Agrees registry calls ↔ (registry.uris ++ added calls).Nodup)) :
    Agrees registry (call :: calls) ↔ (registry.uris ++ uri :: added calls).Nodup := by
  have hafter : (registry.perform call).registry =
      registry.registerResource uri name mime text := by
    rcases hcall with rfl | rfl <;> rfl
  have huris : registry.uris ++ uri :: added calls =
      (registry.registerResource uri name mime text).uris ++ added calls := by
    rw [uris_registerResource, List.append_assoc, List.singleton_append]
  rw [Agrees, hafter, huris]
  by_cases hnew : uri ∈ registry.uris
  · -- registered before, it is now listed twice
    have htwice : ¬ (registry.registerResource uri name mime text).uris.Nodup := by
      rw [uris_registerResource]
      exact fun hnodup => (List.nodup_append.mp hnodup).2.2 uri hnew uri
        (List.mem_singleton.mpr rfl) rfl
    exact ⟨fun hagrees => absurd hagrees.2.2.consistent.uris_nodup htwice,
      fun hnodup => absurd (List.nodup_append.mp hnodup).1 htwice⟩
  · have hfalse : registry.hasResource uri = false :=
      Bool.eq_false_iff.mpr fun htrue => hnew ((h.mem_uris_iff uri).mpr htrue)
    rw [ih (h.registerResource hnew)]
    exact ⟨fun hagrees => hagrees.2.2,
      fun hnodup => ⟨h, faithful_registerResource hfalse call hcall, hnodup⟩⟩

theorem agrees_update (h : Consistent registry)
    (hcall : call = .updateResource uri text ∨ call = .update uri text)
    (ih : ∀ {registry : ToolRegistry}, Consistent registry →
      (Agrees registry calls ↔ (registry.uris ++ added calls).Nodup)) :
    Agrees registry (call :: calls) ↔ (registry.uris ++ added calls).Nodup := by
  have hafter : (registry.perform call).registry = (registry.updateResource uri text).2.2 := by
    rcases hcall with rfl | rfl <;> rfl
  have huris : (registry.updateResource uri text).2.2.uris = registry.uris :=
    congrArg (List.map Resource.uri) updateResource_resources
  rw [Agrees, hafter, ih h.updateResource, huris]
  exact ⟨fun hagrees => hagrees.2.2, fun hnodup => ⟨h, faithful_updateResource call hcall, hnodup⟩⟩

end Runs

theorem agrees_iff_of_consistent {registry : ToolRegistry} (h : Consistent registry)
    (calls : List ResourceCall) :
    Agrees registry calls ↔ (registry.uris ++ added calls).Nodup := by
  induction calls generalizing registry with
  | nil =>
      rw [added, List.append_nil]
      exact ⟨Consistent.uris_nodup, fun _ => h⟩
  | cons call calls ih =>
      cases call with
      | registerResource uri name mime text => exact agrees_register h (Or.inl rfl) ih
      | addResource uri name mime text => exact agrees_register h (Or.inr rfl) ih
      | updateResource uri text => exact agrees_update h (Or.inl rfl) ih
      | update uri text => exact agrees_update h (Or.inr rfl) ih

/-- **The registry.** For every sequence of calls: listing, contents and events agree throughout if and
only if no uri is registered or added twice. -/
theorem agrees_iff (calls : List ResourceCall) : Agrees new calls ↔ (added calls).Nodup :=
  agrees_iff_of_consistent consistent_new calls

/-- A resource that is added once more: it is listed twice, with another type than the contents have,
and who subscribed to it is not told that they changed. -/
theorem added_twice :
    let before := new.registerResource "a" "name" "text/plain" "old"
    let after := before.perform (.addResource "a" "name" "text/html" "new")
    ¬ Agrees new [.registerResource "a" "name" "text/plain" "old",
        .addResource "a" "name" "text/html" "new"] ∧
      after.registry.uris = ["a", "a"] ∧
      (before.readResource "a").bind ResourceContents.text = some "old" ∧
      (after.registry.readResource "a").bind ResourceContents.text = some "new" ∧
      after.events = [.listChanged] := by
  intro before after
  refine ⟨fun hagrees => ?_, rfl, rfl, ?_, rfl⟩
  · have hnodup : ["a", "a"].Nodup := hagrees.2.2.2.2.uris_nodup
    exact absurd hnodup (by decide)
  · rfl

end ToolRegistry

end Ohmcp
