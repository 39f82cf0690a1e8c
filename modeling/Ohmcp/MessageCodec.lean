import Ohmcp.Message
import Ohmcp.Records

/-! The fields of every message body, as the attributes of its type tell `serde` to write and read them,
and what is lost on the way: an optional JSON value that is given as `null`, and nothing else. -/

open Records

namespace Ohmcp

/-! ### Values -/

namespace Value

def shape : Shape Value where
  object := .object
  seq := .array
  entries
    | object fields => some fields
    | _ => none
  elements
    | array items => some items
    | _ => none
  entries_object _ := rfl
  elements_seq _ := rfl

def asI64 : Value → Option Int
  | number (.posInt n) => if n < 2 ^ 63 then some n else none
  | number (.negInt n) => if -2 ^ 63 ≤ n ∧ n < 2 ^ 63 then some n else none
  | _ => none

def codec : Codec Value Value := ⟨id, some⟩

end Value

namespace Serde

def string : Codec Value String := ⟨.string, Value.asStr⟩
def bool : Codec Value Bool := ⟨.bool, Value.asBool⟩
def u64 : Codec Value UInt64 := ⟨fun n => .number (.posInt n.toNat), Value.asU64⟩
def i64 : Codec Value Int :=
  ⟨fun n => .number (if 0 ≤ n then .posInt n.toNat else .negInt n), Value.asI64⟩

variable {α : Type}

/-- `Option<T>`: `null` stands for `None`. -/
def option (codec : Codec Value α) : Codec Value (Option α) := Codec.option .null Value.isNull codec

/-- `Vec<T>` -/
def vec (codec : Codec Value α) : Codec Value (List α) := Codec.list Value.shape codec

/-- `#[serde(default)]` -/
def default (key : String) (codec : Codec Value α) (value : α) : Fields Value α :=
  .omittable key codec value fun _ => false

/-- `#[serde(default, skip_serializing_if = "Option::is_none")]` -/
def optional (key : String) (codec : Codec Value α) : Fields Value (Option α) :=
  .omittable key (option codec) none Option.isNone

/-- `#[serde(default, skip_serializing_if = "Vec::is_empty")]` -/
def skipEmpty (key : String) (codec : Codec Value α) : Fields Value (List α) :=
  .omittable key (vec codec) [] List.isEmpty

section Laws

@[simp] theorem value_returns (v : Value) : Value.codec.Returns v := rfl
@[simp] theorem string_returns (s : String) : string.Returns s := rfl
@[simp] theorem bool_returns (b : Bool) : bool.Returns b := rfl

@[simp] theorem u64_returns (n : UInt64) : u64.Returns n := by
  change (if n.toNat < 2 ^ 64 then some (UInt64.ofNat n.toNat) else none) = some n
  rw [if_pos n.toNat_lt, UInt64.ofNat_toNat]

@[simp] theorem i64_returns_iff {n : Int} : i64.Returns n ↔ -2 ^ 63 ≤ n ∧ n < 2 ^ 63 := by
  rw [Codec.Returns]
  by_cases hn : 0 ≤ n
  · obtain ⟨m, rfl⟩ := Int.eq_ofNat_of_zero_le hn
    simp only [i64, if_pos hn, Value.asI64, Int.toNat_natCast]
    split_ifs with hm
    · simp only [true_iff]
      omega
    · simp only [false_iff]
      omega
  · simp only [i64, if_neg hn, Value.asI64]
    split_ifs with hm
    · simpa only [true_iff] using hm
    · simpa only [false_iff] using hm

variable {key : String} {codec : Codec Value α}

@[simp] theorem vec_returns_iff {as : List α} : (vec codec).Returns as ↔ ∀ a ∈ as, codec.Returns a :=
  Codec.list_returns_iff

@[simp] theorem default_returns_iff {value a : α} :
    (default key codec value).Returns a ↔ codec.Returns a := by
  simp [default]

/-- A value that is there and written as `null` is lost. -/
theorem optional_returns_iff {a : Option α} : (optional key codec).Returns a ↔
    ∀ b, a = some b → (codec.write b).isNull = false ∧ codec.Returns b := by
  rw [optional, Fields.omittable_returns_iff]
  cases a with
  | none => simp
  | some b => simp [option]

@[simp] theorem skipEmpty_returns_iff {as : List α} :
    (skipEmpty key codec).Returns as ↔ ∀ a ∈ as, codec.Returns a := by
  rw [skipEmpty, Fields.omittable_returns_iff, vec_returns_iff]
  cases as with
  | nil => simp
  | cons a as => simp

@[simp] theorem optional_string_returns (a : Option String) : (optional key string).Returns a :=
  optional_returns_iff.mpr fun _ _ => ⟨rfl, rfl⟩

@[simp] theorem optional_u64_returns (a : Option UInt64) : (optional key u64).Returns a :=
  optional_returns_iff.mpr fun n _ => ⟨rfl, u64_returns n⟩

@[simp] theorem optional_value_returns_iff {a : Option Value} :
    (optional key Value.codec).Returns a ↔ a ≠ some .null := by
  rw [optional_returns_iff]
  constructor
  · rintro h rfl
    cases (h .null rfl).1
  · rintro hne v rfl
    refine ⟨?_, rfl⟩
    cases v with
    | null => exact absurd rfl hne
    | _ => rfl

theorem value_settled : Value.codec.Settled := fun _ _ _ => rfl
theorem string_settled : string.Settled := fun _ s _ => string_returns s

theorem i64_settled : i64.Settled := by
  intro v n hread
  apply i64_returns_iff.mpr
  change v.asI64 = some n at hread
  rw [Value.asI64.eq_def] at hread
  split at hread
  · split_ifs at hread
    obtain rfl := Option.some.inj hread
    omega
  · split_ifs at hread with hrange
    obtain rfl := Option.some.inj hread
    exact hrange
  · cases hread

theorem default_settled (h : codec.Settled) {value : α} (hvalue : codec.Returns value) :
    (default key codec value).Settled :=
  .omittable h (fun _ => hvalue) fun _ hskip => nomatch hskip

/-- What is read is never an explicit `null`. -/
theorem optional_value_settled : (optional key Value.codec).Settled := by
  apply Fields.Settled.omittable (value_settled.option rfl _)
  · exact fun hskip => nomatch hskip
  · intro a hnone
    exact Option.isNone_iff_eq_none.mp hnone
  · intro v a hread hnull
    obtain rfl := Option.some.inj hread
    exact hnull

end Laws

end Serde

/-! ### The messages -/

open Records.Fields (required)

open Serde

namespace Implementation

def fields : Fields Value Implementation :=
  ((required "name" string).append (required "version" string) (by decide)).map
    ⟨fun a => ⟨a.1, a.2⟩, fun i => (i.name, i.version), fun _ => rfl, fun _ => rfl⟩

def codec : Codec Value Implementation := fields.record Value.shape

end Implementation

def InitializeParams.fields : Fields Value InitializeParams :=
  ((required "protocolVersion" string).append ((required "clientInfo" Implementation.codec).append
    (default "capabilities" Value.codec .null) (by decide)) (by decide)).map
    ⟨fun a => ⟨a.1, a.2.1, a.2.2⟩, fun p => (p.protocolVersion, p.clientInfo, p.capabilities),
      fun _ => rfl, fun _ => rfl⟩

def InitializeResult.fields : Fields Value InitializeResult :=
  ((required "protocolVersion" string).append ((required "serverInfo" Implementation.codec).append
    (default "capabilities" Value.codec .null) (by decide)) (by decide)).map
    ⟨fun a => ⟨a.1, a.2.1, a.2.2⟩, fun r => (r.protocolVersion, r.serverInfo, r.capabilities),
      fun _ => rfl, fun _ => rfl⟩

namespace Tool

def fields : Fields Value Tool :=
  ((required "name" string).append ((optional "description" string).append
    (required "inputSchema" Value.codec) (by decide)) (by decide)).map
    ⟨fun a => ⟨a.1, a.2.1, a.2.2⟩, fun t => (t.name, t.description, t.inputSchema),
      fun _ => rfl, fun _ => rfl⟩

def codec : Codec Value Tool := fields.record Value.shape

end Tool

def ListToolsResult.fields : Fields Value ListToolsResult :=
  (required "tools" (vec Tool.codec)).map ⟨fun a => ⟨a⟩, fun r => r.tools, fun _ => rfl, fun _ => rfl⟩

def CallToolParams.fields : Fields Value CallToolParams :=
  ((required "name" string).append ((default "arguments" Value.codec .null).append
    (optional "_meta" Value.codec) (by decide)) (by decide)).map
    ⟨fun a => ⟨a.1, a.2.1, a.2.2⟩, fun p => (p.name, p.arguments, p.metadata),
      fun _ => rfl, fun _ => rfl⟩

def CancelParams.fields : Fields Value CancelParams :=
  ((required "requestId" u64).append (optional "reason" string) (by decide)).map
    ⟨fun a => ⟨a.1, a.2⟩, fun p => (p.requestId, p.reason), fun _ => rfl, fun _ => rfl⟩

def ProgressParams.fields : Fields Value ProgressParams :=
  ((required "requestId" u64).append ((required "progress" u64).append
    ((optional "total" u64).append (optional "message" string) (by decide)) (by decide))
    (by decide)).map
    ⟨fun a => ⟨a.1, a.2.1, a.2.2.1, a.2.2.2⟩, fun p => (p.requestId, p.progress, p.total, p.message),
      fun _ => rfl, fun _ => rfl⟩

namespace ContentBlock

def textFields : Fields Value String := required "text" string

def imageFields : Fields Value (String × String) :=
  (required "data" string).append (required "mimeType" string) (by decide)

def write : ContentBlock → Value
  | text s => .object (("type", .string "text") :: textFields.write s)
  | image data mimeType => .object (("type", .string "image") :: imageFields.write (data, mimeType))

/-- The variant the tag names, with its fields read in a given way. -/
def readVariant (tag : String) (readFields : (α : Type) → Fields Value α → Option α) :
    Option ContentBlock :=
  if tag = "text" then (readFields _ textFields).map text
  else if tag = "image" then (readFields _ imageFields).map fun a => image a.1 a.2
  else none

/-- `#[serde(tag = "type")]` -/
def read : Value → Option ContentBlock
  | .object entries =>
      match entries.filter fun entry => entry.1 = "type" with
      | [(_, .string tag)] => readVariant tag fun _ fields => fields.readEntries entries
      | _ => none
  | .array (.string tag :: items) => readVariant tag fun _ fields => fields.readElements items
  | _ => none

def codec : Codec Value ContentBlock := ⟨write, read⟩

end ContentBlock

def CallToolResult.fields : Fields Value CallToolResult :=
  ((required "content" (vec ContentBlock.codec)).append (default "isError" bool false)
    (by decide)).map
    ⟨fun a => ⟨a.1, a.2⟩, fun r => (r.content, r.isError), fun _ => rfl, fun _ => rfl⟩

namespace Resource

def fields : Fields Value Resource :=
  ((required "uri" string).append ((required "name" string).append
    ((optional "description" string).append (optional "mimeType" string) (by decide)) (by decide))
    (by decide)).map
    ⟨fun a => ⟨a.1, a.2.1, a.2.2.1, a.2.2.2⟩, fun r => (r.uri, r.name, r.description, r.mimeType),
      fun _ => rfl, fun _ => rfl⟩

def codec : Codec Value Resource := fields.record Value.shape

end Resource

def ListResourcesResult.fields : Fields Value ListResourcesResult :=
  (required "resources" (vec Resource.codec)).map
    ⟨fun a => ⟨a⟩, fun r => r.resources, fun _ => rfl, fun _ => rfl⟩

def ReadResourceParams.fields : Fields Value ReadResourceParams :=
  (required "uri" string).map ⟨fun a => ⟨a⟩, fun p => p.uri, fun _ => rfl, fun _ => rfl⟩

namespace ResourceContents

def fields : Fields Value ResourceContents :=
  ((required "uri" string).append ((optional "mimeType" string).append
    ((optional "text" string).append (optional "blob" string) (by decide)) (by decide))
    (by decide)).map
    ⟨fun a => ⟨a.1, a.2.1, a.2.2.1, a.2.2.2⟩, fun c => (c.uri, c.mimeType, c.text, c.blob),
      fun _ => rfl, fun _ => rfl⟩

def codec : Codec Value ResourceContents := fields.record Value.shape

end ResourceContents

def ReadResourceResult.fields : Fields Value ReadResourceResult :=
  (required "contents" (vec ResourceContents.codec)).map
    ⟨fun a => ⟨a⟩, fun r => r.contents, fun _ => rfl, fun _ => rfl⟩

def SubscribeResourceParams.fields : Fields Value SubscribeResourceParams :=
  (required "uri" string).map ⟨fun a => ⟨a⟩, fun p => p.uri, fun _ => rfl, fun _ => rfl⟩

def ResourceUpdatedParams.fields : Fields Value ResourceUpdatedParams :=
  (required "uri" string).map ⟨fun a => ⟨a⟩, fun p => p.uri, fun _ => rfl, fun _ => rfl⟩

namespace PromptArgument

def fields : Fields Value PromptArgument :=
  ((Fields.required "name" string).append ((optional "description" string).append
    (default "required" bool false) (by decide)) (by decide)).map
    ⟨fun a => ⟨a.1, a.2.1, a.2.2⟩, fun p => (p.name, p.description, p.required),
      fun _ => rfl, fun _ => rfl⟩

def codec : Codec Value PromptArgument := fields.record Value.shape

end PromptArgument

namespace Prompt

def fields : Fields Value Prompt :=
  ((required "name" string).append ((optional "description" string).append
    (skipEmpty "arguments" PromptArgument.codec) (by decide)) (by decide)).map
    ⟨fun a => ⟨a.1, a.2.1, a.2.2⟩, fun p => (p.name, p.description, p.arguments),
      fun _ => rfl, fun _ => rfl⟩

def codec : Codec Value Prompt := fields.record Value.shape

end Prompt

def ListPromptsResult.fields : Fields Value ListPromptsResult :=
  (required "prompts" (vec Prompt.codec)).map
    ⟨fun a => ⟨a⟩, fun r => r.prompts, fun _ => rfl, fun _ => rfl⟩

def GetPromptParams.fields : Fields Value GetPromptParams :=
  ((required "name" string).append (default "arguments" Value.codec .null) (by decide)).map
    ⟨fun a => ⟨a.1, a.2⟩, fun p => (p.name, p.arguments), fun _ => rfl, fun _ => rfl⟩

namespace PromptMessage

def fields : Fields Value PromptMessage :=
  ((required "role" string).append (required "content" ContentBlock.codec) (by decide)).map
    ⟨fun a => ⟨a.1, a.2⟩, fun m => (m.role, m.content), fun _ => rfl, fun _ => rfl⟩

def codec : Codec Value PromptMessage := fields.record Value.shape

end PromptMessage

def GetPromptResult.fields : Fields Value GetPromptResult :=
  ((optional "description" string).append (required "messages" (vec PromptMessage.codec))
    (by decide)).map
    ⟨fun a => ⟨a.1, a.2⟩, fun r => (r.description, r.messages), fun _ => rfl, fun _ => rfl⟩

def ErrorBody.fields : Fields Value ErrorBody :=
  ((required "code" i64).append ((required "message" string).append
    (optional "data" Value.codec) (by decide)) (by decide)).map
    ⟨fun a => ⟨a.1, a.2.1, a.2.2⟩, fun b => (b.code, b.message, b.data),
      fun _ => rfl, fun _ => rfl⟩

def AuthParams.fields : Fields Value AuthParams :=
  ((required "agent_id" string).append ((required "token" string).append
    ((optional "nonce" string).append (optional "eph_pub" string) (by decide)) (by decide))
    (by decide)).map
    ⟨fun a => ⟨a.1, a.2.1, a.2.2.1, a.2.2.2⟩, fun p => (p.agentId, p.token, p.nonce, p.ephPub),
      fun _ => rfl, fun _ => rfl⟩

def AuthResult.fields : Fields Value AuthResult :=
  ((required "ok" bool).append ((optional "session_key_b64" string).append
    ((optional "reason" string).append (optional "eph_pub" string) (by decide)) (by decide))
    (by decide)).map
    ⟨fun a => ⟨a.1, a.2.1, a.2.2.1, a.2.2.2⟩, fun r => (r.ok, r.sessionKeyB64, r.reason, r.ephPub),
      fun _ => rfl, fun _ => rfl⟩

/-! ### All of them -/

/-- A body is a value of its own, or a record. -/
inductive Form (α : Type) where
  | plain (codec : Codec Value α)
  | record (fields : Fields Value α)

def Form.codec {α : Type} : Form α → Codec Value α
  | plain codec => codec
  | record fields => fields.record Value.shape

namespace Schema

def form : (schema : Schema) → Form schema.Body
  | value => .plain Value.codec
  | string => .plain Serde.string
  | initializeParams => .record InitializeParams.fields
  | initializeResult => .record InitializeResult.fields
  | listToolsResult => .record ListToolsResult.fields
  | callToolParams => .record CallToolParams.fields
  | callToolResult => .record CallToolResult.fields
  | cancelParams => .record CancelParams.fields
  | progressParams => .record ProgressParams.fields
  | listResourcesResult => .record ListResourcesResult.fields
  | readResourceParams => .record ReadResourceParams.fields
  | readResourceResult => .record ReadResourceResult.fields
  | subscribeResourceParams => .record SubscribeResourceParams.fields
  | resourceUpdatedParams => .record ResourceUpdatedParams.fields
  | listPromptsResult => .record ListPromptsResult.fields
  | getPromptParams => .record GetPromptParams.fields
  | getPromptResult => .record GetPromptResult.fields
  | errorBody => .record ErrorBody.fields
  | authParams => .record AuthParams.fields
  | authResult => .record AuthResult.fields

/-- `serde_json::to_value` and `serde_json::from_value` -/
def codec (schema : Schema) : Codec Value schema.Body := schema.form.codec

/-- What can be told from the text of a body: no optional value is given as `null`, and the code of an
error is an `i64`. -/
def Plain : (schema : Schema) → schema.Body → Prop
  | callToolParams, params => params.metadata ≠ some .null
  | errorBody, body => (-2 ^ 63 ≤ body.code ∧ body.code < 2 ^ 63) ∧ body.data ≠ some .null
  | _, _ => True

end Schema

namespace Serde

section Blocks

variable {α : Type} {fields : Fields Value α}

theorem filter_type_write (htype : "type" ∉ fields.keys) (a : α) (tag : Value) :
    (("type", tag) :: fields.write a).filter (fun entry => entry.1 = "type") = [("type", tag)] := by
  rw [List.filter_cons_of_pos (by simp), List.filter_eq_nil_iff.mpr]
  intro entry hentry hname
  have hmem := (fields.keys_write a).subset (List.mem_map_of_mem hentry)
  rw [of_decide_eq_true hname] at hmem
  exact htype hmem

theorem readEntries_type (htype : "type" ∉ fields.keys) (a : α) (tag : Value) :
    fields.readEntries (("type", tag) :: fields.write a) = fields.readEntries (fields.write a) := by
  apply Fields.readEntries_of_perm
  rw [Fields.known, List.filter_cons_of_neg (by simpa using htype)]
  exact List.Perm.refl _

@[simp] theorem contentBlock_returns (block : ContentBlock) : ContentBlock.codec.Returns block := by
  cases block with
  | text s =>
      have htype : "type" ∉ ContentBlock.textFields.keys := by decide
      change ContentBlock.read (.object (("type", .string "text") ::
        ContentBlock.textFields.write s)) = some (.text s)
      rw [ContentBlock.read, filter_type_write htype]
      dsimp only
      rw [ContentBlock.readVariant, if_pos rfl, readEntries_type htype, Fields.readEntries_write.mpr]
      · rfl
      · simp [ContentBlock.textFields]
  | image data mimeType =>
      have htype : "type" ∉ ContentBlock.imageFields.keys := by decide
      change ContentBlock.read (.object (("type", .string "image") ::
        ContentBlock.imageFields.write (data, mimeType))) = some (.image data mimeType)
      rw [ContentBlock.read, filter_type_write htype]
      dsimp only
      rw [ContentBlock.readVariant, if_neg (by decide), if_pos rfl, readEntries_type htype,
        Fields.readEntries_write.mpr]
      · rfl
      · simp [ContentBlock.imageFields]

end Blocks

end Serde

namespace Schema

theorem codec_returns_iff (schema : Schema) (body : schema.Body) :
    schema.codec.Returns body ↔ schema.Plain body := by
  cases schema with
  | value => simp [codec, form, Form.codec, Plain]
  | string => simp [codec, form, Form.codec, Plain]
  | initializeParams =>
      simp [codec, form, Form.codec, Plain, InitializeParams.fields, Implementation.codec,
        Implementation.fields]
  | initializeResult =>
      simp [codec, form, Form.codec, Plain, InitializeResult.fields, Implementation.codec,
        Implementation.fields]
  | listToolsResult =>
      simp [codec, form, Form.codec, Plain, ListToolsResult.fields, Tool.codec, Tool.fields]
  | callToolParams => simp [codec, form, Form.codec, Plain, CallToolParams.fields]
  | callToolResult => simp [codec, form, Form.codec, Plain, CallToolResult.fields]
  | cancelParams => simp [codec, form, Form.codec, Plain, CancelParams.fields]
  | progressParams => simp [codec, form, Form.codec, Plain, ProgressParams.fields]
  | listResourcesResult =>
      simp [codec, form, Form.codec, Plain, ListResourcesResult.fields, Resource.codec,
        Resource.fields]
  | readResourceParams => simp [codec, form, Form.codec, Plain, ReadResourceParams.fields]
  | readResourceResult =>
      simp [codec, form, Form.codec, Plain, ReadResourceResult.fields, ResourceContents.codec,
        ResourceContents.fields]
  | subscribeResourceParams => simp [codec, form, Form.codec, Plain, SubscribeResourceParams.fields]
  | resourceUpdatedParams => simp [codec, form, Form.codec, Plain, ResourceUpdatedParams.fields]
  | listPromptsResult =>
      simp [codec, form, Form.codec, Plain, ListPromptsResult.fields, Prompt.codec, Prompt.fields,
        PromptArgument.codec, PromptArgument.fields]
  | getPromptParams => simp [codec, form, Form.codec, Plain, GetPromptParams.fields]
  | getPromptResult =>
      simp [codec, form, Form.codec, Plain, GetPromptResult.fields, PromptMessage.codec,
        PromptMessage.fields]
  | errorBody => simp [codec, form, Form.codec, Plain, ErrorBody.fields, and_assoc]
  | authParams => simp [codec, form, Form.codec, Plain, AuthParams.fields]
  | authResult => simp [codec, form, Form.codec, Plain, AuthResult.fields]

theorem plain_of_read {schema : Schema} {v : Value} {body : schema.Body}
    (h : schema.codec.read v = some body) : schema.Plain body := by
  cases schema with
  | callToolParams =>
      have hsettled : callToolParams.codec.Settled :=
        Fields.Settled.record (.map (.append (.required string_settled) (.append (default_settled value_settled rfl)
          optional_value_settled)) _)
      exact (codec_returns_iff callToolParams body).mp (hsettled v body h)
  | errorBody =>
      have hsettled : errorBody.codec.Settled :=
        Fields.Settled.record (.map (.append (.required i64_settled) (.append (.required string_settled)
          optional_value_settled)) _)
      exact (codec_returns_iff errorBody body).mp (hsettled v body h)
  | _ => trivial

/-- **Bodies survive.** A body comes back as it was exactly if it has no optional value that is an explicit
`null` and its error code is an `i64`; every body that is read from anything is such a body; and what is
read from an object depends on the fields with a known name alone, in whatever order they are. -/
theorem bodies_survive (schema : Schema) :
    (∀ body, schema.codec.read (schema.codec.write body) = some body ↔ schema.Plain body) ∧
      (∀ v body, schema.codec.read v = some body →
        schema.codec.read (schema.codec.write body) = some body) ∧
      ∀ fields entries entries', schema.form = .record fields →
        (fields.known entries).Perm (fields.known entries') →
          schema.codec.read (.object entries) = schema.codec.read (.object entries') := by
  refine ⟨schema.codec_returns_iff, fun v body hread => ?_, fun fields entries entries' hform hsame => ?_⟩
  · exact (schema.codec_returns_iff body).mpr (plain_of_read hread)
  · rw [codec, hform]
    exact Fields.readEntries_of_perm hsame

/-- An explicit `null` is lost, and an unknown field changes nothing. -/
theorem bodies_survive_params :
    callToolParams.codec.read (callToolParams.codec.write ⟨"t", .null, some .null⟩) ≠
        some ⟨"t", .null, some .null⟩ ∧
      callToolParams.codec.read (.object [("x", .bool true), ("name", .string "t")]) =
        callToolParams.codec.read (.object [("name", .string "t")]) := by
  obtain ⟨hreturns, _, hsame⟩ := bodies_survive callToolParams
  exact ⟨fun h => (hreturns ⟨"t", .null, some .null⟩).mp h rfl,
    hsame CallToolParams.fields _ _ rfl (List.Perm.refl _)⟩

end Schema

/-! ### Their text -/

namespace Serde

variable [Externals] {schema : Schema}

/-- A text is read as this value says. -/
def Reads (schema : Schema) (text : Bytes) (v : Value) : Prop :=
  Externals.fromSlice schema text = schema.codec.read v

/-- The text printed for a body is read as the value the body is written as. -/
def Prints (schema : Schema) (body : schema.Body) : Prop :=
  Reads schema (Externals.toVec schema body) (schema.codec.write body)

theorem Prints.parses {body : schema.Body} (h : Prints schema body) (hplain : schema.Plain body) :
    Externals.fromSlice schema (Externals.toVec schema body) = some body :=
  h.trans ((schema.codec_returns_iff body).mpr hplain)

end Serde

end Ohmcp
