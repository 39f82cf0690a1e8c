import Ohmcp.Message
import Mathlib.Data.List.AList

/-! The tools, resources and prompts a server offers. -/

namespace Ohmcp

/-- A handler may answer the same arguments differently on different occasions. -/
abbrev ToolHandler := Nat → Value → CallToolResult
abbrev PromptHandler := Nat → Value → GetPromptResult

inductive ResourceEvent where
  | updated (uri : String)
  | listChanged
  deriving DecidableEq

structure ToolRegistry where
  tools : List Tool
  handlers : AList fun _ : String => ToolHandler
  cacheable : AList fun _ : String => Bool
  resources : List Resource
  resourceContents : AList fun _ : String => ResourceContents
  prompts : List Prompt
  promptHandlers : AList fun _ : String => PromptHandler
  /-- Only a registered tool has a cacheability. -/
  cacheable_handled : ∀ name, (cacheable.lookup name).isSome → (handlers.lookup name).isSome

namespace ToolRegistry

def new : ToolRegistry := ⟨[], ∅, ∅, [], ∅, [], ∅, fun _ h => by simp at h⟩

def register (registry : ToolRegistry) (name description : String) (inputSchema : Value)
    (cacheable : Bool) (handler : ToolHandler) : ToolRegistry :=
  { registry with
    tools := registry.tools ++ [⟨name, some description, inputSchema⟩]
    handlers := registry.handlers.insert name handler
    cacheable := registry.cacheable.insert name cacheable
    cacheable_handled := by
      intro other hother
      by_cases h : other = name
      · subst h
        rw [AList.lookup_insert, Option.isSome_some]
      · rw [AList.lookup_insert_ne h] at hother ⊢
        exact registry.cacheable_handled other hother }

def isCacheable (registry : ToolRegistry) (name : String) : Bool :=
  (registry.cacheable.lookup name).getD false

def call (registry : ToolRegistry) (occasion : Nat) (name : String) (args : Value) :
    Option CallToolResult :=
  (registry.handlers.lookup name).map fun handler => handler occasion args

def registerResource (registry : ToolRegistry) (uri name mime text : String) : ToolRegistry :=
  { registry with
    resources := registry.resources ++ [⟨uri, name, none, some mime⟩]
    resourceContents := registry.resourceContents.insert uri ⟨uri, some mime, some text, none⟩ }

def readResource (registry : ToolRegistry) (uri : String) : Option ResourceContents :=
  registry.resourceContents.lookup uri

def hasResource (registry : ToolRegistry) (uri : String) : Bool :=
  (registry.resourceContents.lookup uri).isSome

/-- The answer and the event that is broadcast. -/
def updateResource (registry : ToolRegistry) (uri text : String) :
    Bool × Option ResourceEvent × ToolRegistry :=
  match registry.resourceContents.lookup uri with
  | some contents =>
      (true, some (.updated uri), { registry with
        resourceContents := registry.resourceContents.insert uri
          { contents with text := some text } })
  | none => (false, none, registry)

/-- A resource added at run time. -/
def addResource (registry : ToolRegistry) (uri name mime text : String) :
    ResourceEvent × ToolRegistry :=
  (.listChanged, registry.registerResource uri name mime text)

def registerPrompt (registry : ToolRegistry) (prompt : Prompt) (handler : PromptHandler) :
    ToolRegistry :=
  { registry with
    prompts := registry.prompts ++ [prompt]
    promptHandlers := registry.promptHandlers.insert prompt.name handler }

def getPrompt (registry : ToolRegistry) (occasion : Nat) (name : String) (args : Value) :
    Option GetPromptResult :=
  (registry.promptHandlers.lookup name).map fun handler => handler occasion args

/-- A cacheable tool has a handler. -/
theorem exists_call_of_cacheable {registry : ToolRegistry} {name : String}
    (h : registry.isCacheable name = true) (occasion : Nat) (args : Value) :
    ∃ result, registry.call occasion name args = some result := by
  have hsome : (registry.cacheable.lookup name).isSome := by
    unfold isCacheable at h
    cases hlookup : registry.cacheable.lookup name with
    | none =>
        rw [hlookup] at h
        cases h
    | some cacheable => rfl
  obtain ⟨handler, hhandler⟩ :=
    Option.isSome_iff_exists.mp (registry.cacheable_handled name hsome)
  exact ⟨handler occasion args, by rw [call, hhandler, Option.map_some]⟩

theorem hasResource_iff {registry : ToolRegistry} {uri : String} :
    registry.hasResource uri = true ↔ ∃ contents, registry.readResource uri = some contents :=
  Option.isSome_iff_exists

end ToolRegistry

end Ohmcp
