import Ohmcp.Session
import Ohmcp.Client

/-! The client's side of a connection's beginning: what `connect_inner` makes of the `AuthResult`, of
the bytes that carry descriptors, of the `ShmSetupResult` and of the `InitializeResult`. -/

namespace Ohmcp

variable [Externals]

inductive ConnectError where
  | text (message : String)
  | json
  | panicked
  | core (e : CoreError)
  | request (e : RequestError)
  deriving DecidableEq

/-! ### Authentication -/

def authFrame (params : AuthParams) : Frame :=
  .new .auth 0 (Externals.toVec .authParams params)

omit [Externals] in
/-- `result.eph_pub.as_deref().and_then(unhex32)` -/
def authServerPub (result : AuthResult) : Except Panicked (Option Bytes32) :=
  match result.ephPub with
  | none => .ok none
  | some text => unhex32 text

/-- The key the client enables: with the ECDH secret when the server sent a public key. -/
def clientSessionKey (eph : EphemeralKeyPair) (serverPub : Option Bytes32) (token nonce : Bytes) :
    Bytes32 :=
  match serverPub with
  | some peer => eph.deriveFsSessionKey peer token nonce
  | none => deriveSessionKey token nonce

/-- Enables encryption according to the frame that answers `Auth`. -/
def authenticate (pipeline : PayloadPipeline) (eph : EphemeralKeyPair) (token nonce : Bytes)
    (noncePrefix : Bytes) (hlen : noncePrefix.length = 4) (response : Frame) :
    Except ConnectError PayloadPipeline :=
  match Externals.fromSlice .authResult response.payload with
  | none => .error .json
  | some result =>
      if result.ok then
        match authServerPub result with
        | .error _ => .error .panicked
        | .ok serverPub => .ok (pipeline.enableEncryption
            (clientSessionKey eph serverPub token nonce) noncePrefix hlen)
      else .error (.text "auth failed")

/-! ### The shared memory channel -/

omit [Externals] in
def shmSetupFrame : Frame := .new .shmSetup 0 []

omit [Externals] in
/-- Whether `recv_fd_blocking` has a descriptor, by the byte it takes and by what came with it. -/
def recvFd (byte : UInt8) (descriptor : Bool) : Except ConnectError Bool :=
  if byte = 0 then .ok false
  else if descriptor then .ok true
  else .error (.text "no fd in cmsg")

omit [Externals] in
/-- `v.get(key).and_then(as_u64).unwrap_or(0) as usize` -/
def sizeField (v : Value) (key : String) : Nat := (((v.get key).bind Value.asU64).getD 0).toNat

omit [Externals] in
/-- The capacities of the two rings the client maps. -/
def mapRings (v : Value) (downFd upFd : Bool) : Option Nat × Option Nat :=
  let ok := (v.get "ok").bind Value.asBool == some true
  let size := sizeField v "size"
  let upSize := sizeField v "up_size"
  let shm := if ok ∧ 0 < size ∧ size ≤ maxShmCap ∧ downFd then some size else none
  let shmUp := if shm.isSome ∧ 0 < upSize ∧ upSize ≤ maxShmCap ∧ upFd then some upSize else none
  (shm, shmUp)

/-- Maps the rings according to the frame that answers `ShmSetup`. -/
def setupRings (pipeline : PayloadPipeline) (now : Nat) (response : Frame) (downFd upFd : Bool) :
    Except ConnectError (Option Nat × Option Nat) × PayloadPipeline :=
  match pipeline.unwrap now response with
  | (.error e, pipeline) => (.error (.text e), pipeline)
  | (.ok body, pipeline) =>
      match Externals.fromSlice .value body with
      | none => (.error .json, pipeline)
      | some v => (.ok (mapRings v downFd upFd), pipeline)

/-! ### The first request -/

omit [Externals] in
def initializeParams (agentId : String) : InitializeParams where
  protocolVersion := "2025-06-18"
  clientInfo := ⟨agentId, "0.1.0"⟩
  capabilities := .object []

/-- Parses the body of the response to `Initialize`. -/
def finishInitialize (pipeline : PayloadPipeline) (moment : Moment) (response : Frame) :
    Except ConnectError Unit × PayloadPipeline :=
  match finishRequest pipeline moment none response with
  | (.error e, pipeline) => (.error (.request e), pipeline)
  | (.ok body, pipeline) =>
      match Externals.fromSlice .initializeResult body with
      | none => (.error .json, pipeline)
      | some _ => (.ok (), pipeline)

end Ohmcp
