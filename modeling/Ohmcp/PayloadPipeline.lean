import Ohmcp.FrameCodec
import Ohmcp.ResultCache
import Ohmcp.Message

/-! The payload layers both ends share. Outbound: cache reference, then LZ4, then AEAD. Inbound:
the reverse, steered by the header flags. -/

open LittleEndian

namespace Ohmcp

variable [Externals]

/-! ### Compression -/

def compressThreshold : Nat := 512

/-- Compresses a payload of at least the threshold when that makes it shorter. -/
def maybeCompress (payload : Bytes) : Bytes × Bool :=
  if payload.length < compressThreshold then (payload, false)
  else
    let compressed := Externals.compress payload
    if compressed.length < payload.length then (compressed, true) else (payload, false)

def maybeDecompress (payload : Bytes) (compressed : Bool) : Except String Bytes :=
  if compressed then Externals.decompress payload else .ok payload

theorem maybeDecompress_maybeCompress (hx : Externals.Lossless) (payload : Bytes) :
    maybeDecompress (maybeCompress payload).1 (maybeCompress payload).2 = .ok payload := by
  unfold maybeCompress
  dsimp only
  split_ifs
  · rfl
  · exact hx.decompress_compress payload
  · rfl

/-! ### The session cipher -/

structure SessionCipher where
  key : Bytes32
  /-- Four random bytes, fixed for the session. -/
  noncePrefix : Bytes
  nonceCounter : UInt64
  noncePrefix_length : noncePrefix.length = 4
  deriving DecidableEq

namespace SessionCipher

omit [Externals] in
/-- The 12 nonce bytes of the next encryption. -/
def nonce (cipher : SessionCipher) : Bytes := cipher.noncePrefix ++ toLE 8 cipher.nonceCounter.toNat

omit [Externals] in
@[simp] theorem length_nonce (cipher : SessionCipher) : cipher.nonce.length = 12 := by
  rw [nonce, List.length_append, cipher.noncePrefix_length, length_toLE]

/-- `nonce || ciphertext || tag`; the counter moves on. -/
def encrypt (cipher : SessionCipher) (plaintext aad : Bytes) : Bytes × SessionCipher :=
  (cipher.nonce ++ Externals.aeadEncrypt cipher.key cipher.nonce aad plaintext,
    { cipher with nonceCounter := cipher.nonceCounter + 1 })

def decrypt (cipher : SessionCipher) (data aad : Bytes) : Option Bytes :=
  if data.length < 12 + 16 then none
  else Externals.aeadDecrypt cipher.key (data.take 12) aad (data.drop 12)

theorem decrypt_encrypt (hx : Externals.Lossless) {sender receiver : SessionCipher}
    (hkey : receiver.key = sender.key) (plaintext aad : Bytes) :
    receiver.decrypt (sender.encrypt plaintext aad).1 aad = some plaintext := by
  have hlong : ¬ (sender.encrypt plaintext aad).1.length < 12 + 16 := by
    simp only [encrypt, List.length_append, length_nonce, hx.length_encrypt]
    omega
  rw [decrypt, if_neg hlong, encrypt, List.take_left' (length_nonce sender),
    List.drop_left' (length_nonce sender), hkey, hx.decrypt_encrypt]

end SessionCipher

/-! ### The pipeline -/

structure PayloadPipeline where
  cipher : Option SessionCipher
  cache : ResultCache

/-- 300 s in nanoseconds. -/
def cacheTtl : Nat := 300 * 10 ^ 9

omit [Externals] in
theorem length_zeroPrefix : ([0, 0, 0, 0] : Bytes).length = 4 := rfl

namespace PayloadPipeline

omit [Externals] in
def new : PayloadPipeline := ⟨none, .new 4096 cacheTtl⟩

omit [Externals] in
/-- A new cipher starts its counter at zero, under a fresh random prefix. -/
def enableEncryption (pipeline : PayloadPipeline) (key : Bytes32) (noncePrefix : Bytes)
    (hlen : noncePrefix.length = 4) : PayloadPipeline :=
  { pipeline with cipher := some ⟨key, noncePrefix, 0, hlen⟩ }

omit [Externals] in
def encryptionEnabled (pipeline : PayloadPipeline) : Bool := pipeline.cipher.isSome

omit [Externals] in
/-- The associated data binds the message type and the request id. -/
def aad (msgType : MsgType) (requestId : UInt64) : Bytes :=
  msgType.toU8 :: toLE 8 requestId.toNat

/-- The encryption stage: the bytes, the flag it sets and the pipeline with its counter moved. -/
def encryptStage (pipeline : PayloadPipeline) (flags : FrameFlags) (msgType : MsgType)
    (requestId : UInt64) (data : Bytes) : Bytes × FrameFlags × PayloadPipeline :=
  match pipeline.cipher with
  | some cipher =>
      let (sealed, cipher) := cipher.encrypt data (aad msgType requestId)
      (sealed, flags.set FrameFlags.ENCRYPTED, { pipeline with cipher := some cipher })
  | none => (data, flags, pipeline)

/-- A complete payload. The flags that Rust returns beside the frame are those in its header. -/
def wrap (pipeline : PayloadPipeline) (msgType : MsgType) (requestId : UInt64) (payload : Bytes) :
    Frame × PayloadPipeline :=
  let (data, compressed) := maybeCompress payload
  let flags := if compressed then FrameFlags.none.set FrameFlags.COMPRESSED else FrameFlags.none
  let (data, flags, pipeline) := pipeline.encryptStage flags msgType requestId data
  (⟨⟨flags, msgType, requestId, Frame.lenU32 data⟩, data⟩, pipeline)

/-- A reference to a result the peer has a copy of: the 32 key bytes. -/
def wrapCacheRef (pipeline : PayloadPipeline) (msgType : MsgType) (requestId : UInt64)
    (key : CacheKey) : Frame × PayloadPipeline :=
  let flags := FrameFlags.none.set FrameFlags.CACHE_REF
  let (data, flags, pipeline) := pipeline.encryptStage flags msgType requestId key.asBytes
  (⟨⟨flags, msgType, requestId, Frame.lenU32 data⟩, data⟩, pipeline)

/-- The inverse of `encryptStage`, steered by the `ENCRYPTED` flag. -/
def decryptStage (pipeline : PayloadPipeline) (frame : Frame) : Except String Bytes :=
  if frame.header.flags.encrypted then
    match pipeline.cipher with
    | none => .error "encrypted frame but no session key"
    | some cipher =>
        match cipher.decrypt frame.payload (aad frame.header.msgType frame.header.requestId) with
        | none => .error "decryption failed"
        | some data => .ok data
  else .ok frame.payload

/-- Decryption, decompression and resolution of a cache reference. -/
def unwrap (pipeline : PayloadPipeline) (now : Nat) (frame : Frame) :
    Except String Bytes × PayloadPipeline :=
  match pipeline.decryptStage frame with
  | .error e => (.error e, pipeline)
  | .ok data =>
      match maybeDecompress data frame.header.flags.compressed with
      | .error e => (.error e, pipeline)
      | .ok data =>
          if frame.header.flags.cacheRef then
            match CacheKey.fromSlice data with
            | none => (.error "bad cache ref", pipeline)
            | some key =>
                let (value, cache) := pipeline.cache.get now key
                let pipeline := { pipeline with cache := cache }
                match value with
                | none => (.error "cache ref miss", pipeline)
                | some value => (.ok value, pipeline)
          else (.ok data, pipeline)

omit [Externals] in
/-- Records a full result for later references. -/
def remember (pipeline : PayloadPipeline) (now : Nat) (order : List CacheKey) (key : CacheKey)
    (value : Bytes) : PayloadPipeline :=
  { pipeline with cache := pipeline.cache.put now order key value }

/-! ### The cipher stays -/

@[simp] theorem cipher_unwrap (pipeline : PayloadPipeline) (now : Nat) (frame : Frame) :
    (pipeline.unwrap now frame).2.cipher = pipeline.cipher := by
  unfold unwrap
  rcases pipeline.decryptStage frame with _ | data
  · rfl
  · dsimp only
    rcases maybeDecompress data frame.header.flags.compressed with _ | data
    · rfl
    · dsimp only
      split_ifs
      · rcases CacheKey.fromSlice data with _ | key
        · rfl
        · dsimp only
          split <;> rfl
      · rfl

/-! ### The two directions agree -/

omit [Externals] in
def cipherKey (pipeline : PayloadPipeline) : Option Bytes32 :=
  pipeline.cipher.map SessionCipher.key

omit [Externals] in
/-- Both ends have the same key, or neither encrypts. -/
def SameKey (sender receiver : PayloadPipeline) : Prop := receiver.cipherKey = sender.cipherKey

theorem cipherKey_unwrap (pipeline : PayloadPipeline) (now : Nat) (frame : Frame) :
    (pipeline.unwrap now frame).2.cipherKey = pipeline.cipherKey := by
  rw [cipherKey, cipher_unwrap, cipherKey]

/-- What `unwrap` does once the outer layers are open. -/
theorem unwrap_of_open {pipeline : PayloadPipeline} {now : Nat} {frame : Frame} {data : Bytes}
    (hdecrypt : (pipeline.decryptStage frame).bind
      (maybeDecompress · frame.header.flags.compressed) = .ok data) :
    pipeline.unwrap now frame =
      if frame.header.flags.cacheRef then
        match CacheKey.fromSlice data with
        | none => (.error "bad cache ref", pipeline)
        | some key =>
            match (pipeline.cache.get now key).1 with
            | none => (.error "cache ref miss",
                { pipeline with cache := (pipeline.cache.get now key).2 })
            | some value => (.ok value, { pipeline with cache := (pipeline.cache.get now key).2 })
      else (.ok data, pipeline) := by
  unfold unwrap
  cases hstage : pipeline.decryptStage frame with
  | error e =>
      rw [hstage] at hdecrypt
      cases hdecrypt
  | ok plain =>
      rw [hstage] at hdecrypt
      simp only [Except.bind] at hdecrypt
      simp only [hdecrypt]

section RoundTrip

variable {sender receiver : PayloadPipeline} {msgType : MsgType} {requestId : UInt64}

variable (sender msgType requestId) in
/-- The encryption stage sets no flag but its own. -/
theorem encryptStage_flags (flags : FrameFlags) (data : Bytes) :
    let stage := sender.encryptStage flags msgType requestId data
    stage.2.1.compressed = flags.compressed ∧ stage.2.1.cacheRef = flags.cacheRef ∧
      stage.2.1.shmRef = flags.shmRef ∧ stage.2.1.cacheable = flags.cacheable := by
  unfold encryptStage
  cases sender.cipher with
  | none => exact ⟨rfl, rfl, rfl, rfl⟩
  | some cipher =>
      have hbits : ∀ bits : UInt8,
          let before : FrameFlags := ⟨bits⟩
          let after := before.set FrameFlags.ENCRYPTED
          after.compressed = before.compressed ∧ after.cacheRef = before.cacheRef ∧
            after.shmRef = before.shmRef ∧ after.cacheable = before.cacheable := by
        decide +kernel
      exact hbits flags.bits

/-- Decryption undoes the encryption stage, whatever else the flags say later. -/
theorem decryptStage_encryptStage (hx : Externals.Lossless) (hkey : sender.SameKey receiver)
    {flags : FrameFlags} (hplain : flags.encrypted = false) (data : Bytes) {frame : Frame}
    (htype : frame.header.msgType = msgType) (hid : frame.header.requestId = requestId)
    (hflags : frame.header.flags.encrypted =
      (sender.encryptStage flags msgType requestId data).2.1.encrypted)
    (hpayload : frame.payload = (sender.encryptStage flags msgType requestId data).1) :
    receiver.decryptStage frame = .ok data := by
  unfold SameKey cipherKey at hkey
  cases hsender : sender.cipher with
  | none =>
      simp only [encryptStage, hsender] at hflags hpayload
      rw [decryptStage, if_neg (by rw [hflags, hplain]; exact Bool.false_ne_true), hpayload]
  | some cipher =>
      rw [hsender, Option.map_some] at hkey
      obtain ⟨own, hreceiver, hown⟩ := Option.map_eq_some_iff.mp hkey
      simp only [encryptStage, hsender] at hflags hpayload
      have hset : (flags.set FrameFlags.ENCRYPTED).encrypted = true :=
        FrameFlags.of_bits flags (p := fun f => (f.set FrameFlags.ENCRYPTED).encrypted = true)
          (by decide +kernel)
      simp only [decryptStage, hflags, hset, if_true, hreceiver, hpayload, htype, hid,
        SessionCipher.decrypt_encrypt hx hown]

/-- A frame that carries a wrapped payload, possibly with `CACHEABLE` set afterwards. -/
structure Carries (sender : PayloadPipeline) (msgType : MsgType) (requestId : UInt64)
    (payload : Bytes) (frame : Frame) : Prop where
  msgType_eq : frame.header.msgType = msgType
  requestId_eq : frame.header.requestId = requestId
  payload_eq : frame.payload = (sender.wrap msgType requestId payload).1.payload
  encrypted_eq : frame.header.flags.encrypted =
    (sender.wrap msgType requestId payload).1.header.flags.encrypted
  compressed_eq : frame.header.flags.compressed =
    (sender.wrap msgType requestId payload).1.header.flags.compressed
  cacheRef_eq : frame.header.flags.cacheRef = false

theorem cipherKey_encryptStage (flags : FrameFlags) (data : Bytes) :
    (sender.encryptStage flags msgType requestId data).2.2.cipherKey = sender.cipherKey := by
  rw [encryptStage, cipherKey, cipherKey]
  rcases hcipher : sender.cipher with _ | cipher
  · exact congrArg _ hcipher
  · rfl

@[simp] theorem cipherKey_wrap (payload : Bytes) :
    (sender.wrap msgType requestId payload).2.cipherKey = sender.cipherKey :=
  cipherKey_encryptStage _ _

@[simp] theorem cipherKey_wrapCacheRef (key : CacheKey) :
    (sender.wrapCacheRef msgType requestId key).2.cipherKey = sender.cipherKey :=
  cipherKey_encryptStage _ _

variable (sender msgType requestId) in
theorem wrap_flags (payload : Bytes) :
    let flags := (sender.wrap msgType requestId payload).1.header.flags
    flags.compressed = (maybeCompress payload).2 ∧ flags.cacheRef = false ∧
      flags.shmRef = false ∧ flags.cacheable = false := by
  have hflags := encryptStage_flags sender msgType requestId (if (maybeCompress payload).2 then
      FrameFlags.none.set FrameFlags.COMPRESSED else FrameFlags.none) (maybeCompress payload).1
  cases hcompressed : (maybeCompress payload).2 <;> rw [hcompressed] at hflags <;>
    simp only [wrap, hcompressed] <;> exact hflags

theorem carries_wrap (payload : Bytes) :
    sender.Carries msgType requestId payload (sender.wrap msgType requestId payload).1 :=
  ⟨rfl, rfl, rfl, rfl, rfl, (wrap_flags sender msgType requestId payload).2.1⟩

/-- **Round trip.** Unwrapping returns the payload that was wrapped. -/
theorem unwrap_of_carries (hx : Externals.Lossless) (hkey : sender.SameKey receiver) (now : Nat)
    {payload : Bytes} {frame : Frame} (hframe : sender.Carries msgType requestId payload frame) :
    receiver.unwrap now frame = (.ok payload, receiver) := by
  have hplain : (if (maybeCompress payload).2 then FrameFlags.none.set FrameFlags.COMPRESSED
      else FrameFlags.none).encrypted = false := by
    cases (maybeCompress payload).2 <;> rfl
  have hdecrypt : receiver.decryptStage frame = .ok (maybeCompress payload).1 :=
    decryptStage_encryptStage hx hkey hplain _ hframe.msgType_eq hframe.requestId_eq
      hframe.encrypted_eq hframe.payload_eq
  have hcompressed : frame.header.flags.compressed = (maybeCompress payload).2 :=
    hframe.compressed_eq.trans (wrap_flags sender msgType requestId payload).1
  have hopen : (receiver.decryptStage frame).bind
      (maybeDecompress · frame.header.flags.compressed) = .ok payload := by
    rw [hdecrypt, hcompressed]
    exact maybeDecompress_maybeCompress hx payload
  rw [unwrap_of_open hopen, hframe.cacheRef_eq]
  rfl

theorem unwrap_wrap (hx : Externals.Lossless) (hkey : sender.SameKey receiver) (now : Nat)
    (payload : Bytes) :
    receiver.unwrap now (sender.wrap msgType requestId payload).1 = (.ok payload, receiver) :=
  unwrap_of_carries hx hkey now (carries_wrap payload)

variable (sender msgType requestId) in
theorem wrapCacheRef_flags (key : CacheKey) :
    let flags := (sender.wrapCacheRef msgType requestId key).1.header.flags
    flags.compressed = false ∧ flags.cacheRef = true ∧ flags.shmRef = false ∧
      flags.cacheable = false :=
  encryptStage_flags sender msgType requestId (FrameFlags.none.set FrameFlags.CACHE_REF) key.asBytes

/-- Unwrapping a cache reference looks the key up in the receiver's cache. -/
theorem unwrap_wrapCacheRef (hx : Externals.Lossless) (hkey : sender.SameKey receiver) (now : Nat)
    (key : CacheKey) :
    receiver.unwrap now (sender.wrapCacheRef msgType requestId key).1 =
      ((receiver.cache.live now key).elim (.error "cache ref miss") .ok,
        { receiver with cache := (receiver.cache.get now key).2 }) := by
  have hflags := wrapCacheRef_flags sender msgType requestId key
  have hdecrypt : receiver.decryptStage (sender.wrapCacheRef msgType requestId key).1 =
      .ok key.asBytes :=
    decryptStage_encryptStage hx hkey
      (rfl : (FrameFlags.none.set FrameFlags.CACHE_REF).encrypted = false) _ rfl rfl rfl rfl
  have hopen : (receiver.decryptStage (sender.wrapCacheRef msgType requestId key).1).bind
      (maybeDecompress · (sender.wrapCacheRef msgType requestId key).1.header.flags.compressed) =
        .ok key.asBytes := by
    rw [hdecrypt, hflags.1]
    rfl
  rw [unwrap_of_open hopen, hflags.2.1,
    if_pos rfl, CacheKey.fromSlice_asBytes]
  simp only [ResultCache.get_fst]
  cases receiver.cache.live now key <;> rfl

@[simp] theorem wrap_msgType (payload : Bytes) :
    (sender.wrap msgType requestId payload).1.header.msgType = msgType := rfl

@[simp] theorem wrap_requestId (payload : Bytes) :
    (sender.wrap msgType requestId payload).1.header.requestId = requestId := rfl

@[simp] theorem wrapCacheRef_msgType (key : CacheKey) :
    (sender.wrapCacheRef msgType requestId key).1.header.msgType = msgType := rfl

@[simp] theorem wrapCacheRef_requestId (key : CacheKey) :
    (sender.wrapCacheRef msgType requestId key).1.header.requestId = requestId := rfl

end RoundTrip

end PayloadPipeline

end Ohmcp
