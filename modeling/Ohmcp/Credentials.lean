import Ohmcp.Hex
import Mathlib.Data.Finset.Insert
import Mathlib.Data.List.AList

/-! The pre-shared-token handshake: challenge response, session keys with and without an
ephemeral exchange, and the tools an agent may call. -/

namespace Ohmcp

variable [Externals]

/-! ### The challenge response -/

def hmacResponse (token nonce : Bytes) : Bytes32 := Externals.hmac token nonce

def verifyResponse (token nonce response : Bytes) : Bool :=
  response == (Externals.hmac token nonce).bytes

def deriveSessionKey (token nonce : Bytes) : Bytes32 :=
  Externals.hmac token (utf8 "ohmcp-session" ++ nonce)

theorem verifyResponse_iff {token nonce response : Bytes} :
    verifyResponse token nonce response = true ↔ response = (hmacResponse token nonce).bytes :=
  beq_iff_eq

omit [Externals] in
/-- An X25519 key pair that lives for one handshake. -/
structure EphemeralKeyPair where
  secret : Bytes32
  deriving DecidableEq

namespace EphemeralKeyPair

def publicBytes (pair : EphemeralKeyPair) : Bytes32 := Externals.publicKey pair.secret

def deriveFsSessionKey (pair : EphemeralKeyPair) (peer : Bytes32) (token nonce : Bytes) : Bytes32 :=
  Externals.hmac token
    (utf8 "ohmcp-fs" ++ nonce ++ (Externals.diffieHellman pair.secret peer).bytes)

end EphemeralKeyPair

/-- The `Auth` body a client with a token sends: a nonce of its own, the response to it, and its
ephemeral public key. -/
def authParams (agentId : String) (token nonce : Bytes) (pair : EphemeralKeyPair) : AuthParams where
  agentId := agentId
  token := hex (hmacResponse token (utf8 (hex nonce))).bytes
  nonce := some (hex nonce)
  ephPub := some (hex pair.publicBytes.bytes)

/-! ### Access control -/

inductive SecurityError where
  | authFailed
  | decryptFailed
  | accessDenied (tool : String)
  deriving DecidableEq

structure ToolAcl where
  grants : AList fun _ : String => Finset String
  allowAll : Finset String

namespace ToolAcl

omit [Externals] in
def new : ToolAcl := ⟨∅, ∅⟩

omit [Externals] in
def grant (acl : ToolAcl) (agentId tool : String) : ToolAcl :=
  let tools := (acl.grants.lookup agentId).getD ∅
  { acl with grants := acl.grants.insert agentId (insert tool tools) }

omit [Externals] in
def grantAll (acl : ToolAcl) (agentId : String) : ToolAcl :=
  { acl with allowAll := insert agentId acl.allowAll }

omit [Externals] in
def check (acl : ToolAcl) (agentId tool : String) : Except SecurityError Unit :=
  if agentId ∈ acl.allowAll then .ok ()
  else if tool ∈ (acl.grants.lookup agentId).getD ∅ then .ok ()
  else .error (.accessDenied tool)

end ToolAcl

end Ohmcp
