import Ohmcp.Frame

/-! The MCP message model: JSON values, the bodies of the messages the session and the client
exchange, and the interface of everything that is linked in from outside: `serde_json`, LZ4, the
AEAD, the hashes and X25519. -/

namespace Ohmcp

/-! ### JSON values -/

inductive Number where
  | posInt (n : Nat)
  | negInt (n : Int)
  /-- A float by its shortest decimal text. -/
  | float (text : String)
  deriving DecidableEq, Repr

inductive Value where
  | null
  | bool (b : Bool)
  | number (n : Number)
  | string (s : String)
  | array (items : List Value)
  | object (fields : List (String × Value))

namespace Value

def get : Value → String → Option Value
  | object fields, key => fields.lookup key
  | _, _ => none

def asBool : Value → Option Bool
  | bool b => some b
  | _ => none

def asU64 : Value → Option UInt64
  | number (.posInt n) => if n < 2 ^ 64 then some (.ofNat n) else none
  | _ => none

def asStr : Value → Option String
  | string s => some s
  | _ => none

def isNull : Value → Bool
  | null => true
  | _ => false

end Value

/-! ### Message bodies -/

structure Implementation where
  name : String
  version : String

structure InitializeParams where
  protocolVersion : String
  clientInfo : Implementation
  capabilities : Value

structure InitializeResult where
  protocolVersion : String
  serverInfo : Implementation
  capabilities : Value

structure Tool where
  name : String
  description : Option String
  inputSchema : Value

structure ListToolsResult where
  tools : List Tool

structure CallToolParams where
  name : String
  arguments : Value
  /-- Metadata such as a wish for progress notifications. -/
  metadata : Option Value

structure CancelParams where
  requestId : UInt64
  reason : Option String

structure ProgressParams where
  requestId : UInt64
  progress : UInt64
  total : Option UInt64
  message : Option String

inductive ContentBlock where
  | text (text : String)
  | image (data mimeType : String)

structure CallToolResult where
  content : List ContentBlock
  isError : Bool

structure Resource where
  uri : String
  name : String
  description : Option String
  mimeType : Option String

structure ListResourcesResult where
  resources : List Resource

structure ReadResourceParams where
  uri : String

structure ResourceContents where
  uri : String
  mimeType : Option String
  text : Option String
  blob : Option String

structure ReadResourceResult where
  contents : List ResourceContents

structure SubscribeResourceParams where
  uri : String

structure ResourceUpdatedParams where
  uri : String

structure PromptArgument where
  name : String
  description : Option String
  required : Bool

structure Prompt where
  name : String
  description : Option String
  arguments : List PromptArgument

structure ListPromptsResult where
  prompts : List Prompt

structure GetPromptParams where
  name : String
  arguments : Value

structure PromptMessage where
  role : String
  content : ContentBlock

structure GetPromptResult where
  description : Option String
  messages : List PromptMessage

structure ErrorBody where
  code : Int
  message : String
  data : Option Value

structure AuthParams where
  agentId : String
  /-- The hex of the challenge response. -/
  token : String
  nonce : Option String
  /-- The hex of the client's ephemeral public key. -/
  ephPub : Option String
  deriving DecidableEq

structure AuthResult where
  ok : Bool
  sessionKeyB64 : Option String
  reason : Option String
  /-- The hex of the server's ephemeral public key. -/
  ephPub : Option String

/-! ### What is linked in -/

/-- The body types `serde_json` prints and parses. -/
inductive Schema where
  | value
  | string
  | initializeParams
  | initializeResult
  | listToolsResult
  | callToolParams
  | callToolResult
  | cancelParams
  | progressParams
  | listResourcesResult
  | readResourceParams
  | readResourceResult
  | subscribeResourceParams
  | resourceUpdatedParams
  | listPromptsResult
  | getPromptParams
  | getPromptResult
  | errorBody
  | authParams
  | authResult

@[reducible] def Schema.Body : Schema → Type
  | value => Value
  | string => String
  | initializeParams => InitializeParams
  | initializeResult => InitializeResult
  | listToolsResult => ListToolsResult
  | callToolParams => CallToolParams
  | callToolResult => CallToolResult
  | cancelParams => CancelParams
  | progressParams => ProgressParams
  | listResourcesResult => ListResourcesResult
  | readResourceParams => ReadResourceParams
  | readResourceResult => ReadResourceResult
  | subscribeResourceParams => SubscribeResourceParams
  | resourceUpdatedParams => ResourceUpdatedParams
  | listPromptsResult => ListPromptsResult
  | getPromptParams => GetPromptParams
  | getPromptResult => GetPromptResult
  | errorBody => ErrorBody
  | authParams => AuthParams
  | authResult => AuthResult

/-- The third-party functions the stack calls. -/
class Externals where
  /-- `serde_json::to_vec` -/
  toVec (schema : Schema) : schema.Body → Bytes
  /-- `serde_json::from_slice` -/
  fromSlice (schema : Schema) : Bytes → Option schema.Body
  /-- `lz4_flex::compress_prepend_size` -/
  compress : Bytes → Bytes
  /-- `lz4_flex::decompress_size_prepended` -/
  decompress : Bytes → Except String Bytes
  /-- ChaCha20-Poly1305: key, nonce, associated data and plaintext to ciphertext and tag. -/
  aeadEncrypt : Bytes32 → Bytes → Bytes → Bytes → Bytes
  /-- ChaCha20-Poly1305: key, nonce, associated data and ciphertext with tag to plaintext. -/
  aeadDecrypt : Bytes32 → Bytes → Bytes → Bytes → Option Bytes
  /-- SHA-256 -/
  sha256 : Bytes → Bytes32
  /-- HMAC-SHA256: key and message to tag. -/
  hmac : Bytes → Bytes → Bytes32
  /-- X25519 on the base point. -/
  publicKey : Bytes32 → Bytes32
  /-- X25519: own secret and the peer's public key. -/
  diffieHellman : Bytes32 → Bytes32 → Bytes32

/-- What the payload layers rely on: both directions of compression and of encryption agree, and
the AEAD appends a 16-byte tag. -/
structure Externals.Lossless [Externals] : Prop where
  decompress_compress : ∀ payload, Externals.decompress (Externals.compress payload) = .ok payload
  decrypt_encrypt : ∀ key nonce aad plain,
    Externals.aeadDecrypt key nonce aad (Externals.aeadEncrypt key nonce aad plain) = some plain
  length_encrypt : ∀ key nonce aad plain,
    (Externals.aeadEncrypt key nonce aad plain).length = plain.length + 16

/-- Externals without any cryptography or text format: bytes are stored as they are, behind a
length or in front of a tag. -/
@[reducible] def Externals.plain : Externals where
  toVec _ _ := []
  fromSlice _ _ := none
  compress payload := LittleEndian.toLE 4 payload.length ++ payload
  decompress payload := .ok (payload.drop 4)
  aeadEncrypt _ _ _ plain := plain ++ List.replicate 16 0
  aeadDecrypt _ _ _ sealed := some (sealed.take (sealed.length - 16))
  sha256 _ := .zeros
  hmac _ _ := .zeros
  publicKey _ := .zeros
  diffieHellman _ _ := .zeros

theorem Externals.plain_lossless : @Externals.Lossless .plain := by
  let _ : Externals := .plain
  refine ⟨fun payload => ?_, fun _ _ _ plain => ?_, fun _ _ _ plain => ?_⟩
  · exact congrArg Except.ok (List.drop_left' (LittleEndian.length_toLE 4 payload.length))
  · have hlen : plain.length = (plain ++ List.replicate 16 0).length - 16 := by
      rw [List.length_append, List.length_replicate, Nat.add_sub_cancel]
    exact congrArg some (List.take_left' hlen)
  · exact (List.length_append).trans (congrArg _ List.length_replicate)

end Ohmcp
