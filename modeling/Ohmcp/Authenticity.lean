import Ohmcp.PayloadPipeline
import Ohmcp.Transition

/-! Two ends with one session key and an adversary who makes up the frames they get. An encrypted
frame that `unwrap` accepts was sealed by a holder of the key, under the same message type and
request id; the flags, which steer `unwrap`, are bound by nothing. -/

open LittleEndian Transition

namespace Ohmcp

variable [Externals]

omit [Externals] in
/-- The associated data determines the message type and the request id. -/
theorem PayloadPipeline.aad_injective {msgType msgType' : MsgType} {requestId requestId' : UInt64}
    (h : aad msgType requestId = aad msgType' requestId') :
    msgType = msgType' ∧ requestId = requestId' := by
  obtain ⟨htype, hid⟩ := List.cons.inj h
  refine ⟨MsgType.toU8_injective htype, UInt64.toNat_inj.mp ?_⟩
  calc requestId.toNat = ofLE (toLE 8 requestId.toNat) := (ofLE_toLE_of_lt requestId.toNat_lt).symm
    _ = ofLE (toLE 8 requestId'.toNat) := by rw [hid]
    _ = requestId'.toNat := ofLE_toLE_of_lt requestId'.toNat_lt

omit [Externals] in
/-- The frame under other flags. -/
def Frame.alter (frame : Frame) (change : FrameFlags → FrameFlags) : Frame :=
  { frame with header := { frame.header with flags := change frame.header.flags } }

namespace Tamper

open PayloadPipeline

/-! ### The system -/

inductive Side where
  | client
  | server
  deriving DecidableEq

inductive Content where
  | body (payload : Bytes)
  | reference (key : CacheKey)

/-- One call of `wrap` or of `wrap_cache_ref`. -/
structure Sending where
  side : Side
  /-- The pipeline the call found. -/
  before : PayloadPipeline
  msgType : MsgType
  requestId : UInt64
  content : Content

namespace Sending

def result (sending : Sending) : Frame × PayloadPipeline :=
  match sending.content with
  | .body payload => sending.before.wrap sending.msgType sending.requestId payload
  | .reference key => sending.before.wrapCacheRef sending.msgType sending.requestId key

def frame (sending : Sending) : Frame := sending.result.1

/-- What goes into the cipher. -/
def plaintext (sending : Sending) : Bytes :=
  match sending.content with
  | .body payload => (maybeCompress payload).1
  | .reference key => key.asBytes

/-- The nonce, the associated data and the ciphertext of the call. -/
def Seals (sending : Sending) (key : Bytes32) (nonce ad ciphertext : Bytes) : Prop :=
  ∃ cipher, sending.before.cipher = some cipher ∧ cipher.key = key ∧ cipher.nonce = nonce ∧
    aad sending.msgType sending.requestId = ad ∧
    Externals.aeadEncrypt key nonce ad sending.plaintext = ciphertext

end Sending

structure State where
  pipeline : Side → PayloadPipeline
  sent : List Sending

inductive Op where
  | send (side : Side) (msgType : MsgType) (requestId : UInt64) (content : Content)
  | remember (side : Side) (now : Nat) (order : List CacheKey) (key : CacheKey) (value : Bytes)
  /-- The adversary gives an end a frame to unwrap. -/
  | deliver (side : Side) (now : Nat) (frame : Frame)

omit [Externals] in
def init (pipeline : Side → PayloadPipeline) : State := ⟨pipeline, []⟩

def State.send (s : State) (side : Side) (msgType : MsgType) (requestId : UInt64)
    (content : Content) : State :=
  let sending : Sending := ⟨side, s.pipeline side, msgType, requestId, content⟩
  ⟨Function.update s.pipeline side sending.result.2, s.sent ++ [sending]⟩

def step (s : State) : Op → Option State
  | .send side msgType requestId content => some (s.send side msgType requestId content)
  | .remember side now order key value =>
      some { s with
        pipeline := Function.update s.pipeline side ((s.pipeline side).remember now order key value) }
  | .deliver side now frame =>
      some { s with
        pipeline := Function.update s.pipeline side ((s.pipeline side).unwrap now frame).2 }

/-- The AEAD is ideal: what opens under the key was sealed before by a holder of the key. -/
def Ideal (key : Bytes32) (s : State) : Op → Prop
  | .deliver _ _ frame =>
      let nonce := frame.payload.take 12
      let ad := aad frame.header.msgType frame.header.requestId
      let ciphertext := frame.payload.drop 12
      frame.header.flags.encrypted = true →
        (Externals.aeadDecrypt key nonce ad ciphertext).isSome = true →
          ∃ sending ∈ s.sent, sending.Seals key nonce ad ciphertext
  | _ => True

/-- What the content stands for at an end with this cache. -/
def Content.Gives (content : Content) (cache : ResultCache) (now : Nat) (body : Bytes) : Prop :=
  match content with
  | .body payload => payload = body
  | .reference key => cache.live now key = some body

/-- The peer sent this body under the frame's header. -/
def FromPeer (s : State) (side : Side) (now : Nat) (frame : Frame) (body : Bytes) : Prop :=
  ∃ sending ∈ s.sent, sending.side ≠ side ∧ sending.msgType = frame.header.msgType ∧
    sending.requestId = frame.header.requestId ∧
    sending.content.Gives (s.pipeline side).cache now body

instance (content : Content) (cache : ResultCache) (now : Nat) (body : Bytes) :
    Decidable (content.Gives cache now body) :=
  match content with
  | .body payload => inferInstanceAs (Decidable (payload = body))
  | .reference key => inferInstanceAs (Decidable (cache.live now key = some body))

instance (s : State) (side : Side) (now : Nat) (frame : Frame) (body : Bytes) :
    Decidable (FromPeer s side now frame body) :=
  inferInstanceAs (Decidable (∃ sending ∈ s.sent, sending.side ≠ side ∧ _ ∧ _ ∧ _))

/-! ### The key stays -/

omit [Externals] in
@[simp] theorem cipherKey_remember (pipeline : PayloadPipeline) (now : Nat) (order : List CacheKey)
    (key : CacheKey) (value : Bytes) :
    (pipeline.remember now order key value).cipherKey = pipeline.cipherKey := rfl

theorem cipherKey_result (sending : Sending) :
    sending.result.2.cipherKey = sending.before.cipherKey := by
  unfold Sending.result
  cases sending.content with
  | body payload => exact cipherKey_wrap payload
  | reference key => exact cipherKey_wrapCacheRef key

def Keyed (key : Bytes32) (s : State) : Prop := ∀ side, (s.pipeline side).cipherKey = some key

theorem keyed_step {key : Bytes32} {s t : State} {op : Op} (hkeyed : Keyed key s)
    (hstep : step s op = some t) : Keyed key t := by
  have hupdate : ∀ (side : Side) (pipeline : PayloadPipeline), pipeline.cipherKey = some key →
      ∀ other, (Function.update s.pipeline side pipeline other).cipherKey = some key := by
    intro side pipeline hpipeline other
    by_cases hother : other = side
    · rw [hother, Function.update_self]
      exact hpipeline
    · rw [Function.update_of_ne hother]
      exact hkeyed other
  cases op with
  | send side msgType requestId content =>
      obtain rfl := Option.some.inj hstep
      exact hupdate side _ ((cipherKey_result _).trans (hkeyed side))
  | remember side now order key value =>
      obtain rfl := Option.some.inj hstep
      exact hupdate side _ ((cipherKey_remember _ _ _ _ _).trans (hkeyed side))
  | deliver side now frame =>
      obtain rfl := Option.some.inj hstep
      refine hupdate side _ ?_
      rw [cipherKey, cipher_unwrap]
      exact hkeyed side

/-! ### What an accepted frame opens to -/

namespace Sending

variable {sending : Sending} {key : Bytes32} {nonce ad ciphertext : Bytes}

theorem Seals.payload_eq (hseals : sending.Seals key nonce ad ciphertext) :
    sending.frame.payload = nonce ++ ciphertext := by
  obtain ⟨cipher, hcipher, rfl, rfl, rfl, rfl⟩ := hseals
  obtain ⟨side, before, msgType, requestId, content⟩ := sending
  dsimp only at hcipher
  cases content <;>
    simp only [frame, result, plaintext, wrap, wrapCacheRef, encryptStage, hcipher,
      SessionCipher.encrypt]

/-- A frame that differs from a sent one in its flags at most can be delivered. -/
theorem ideal_of_mem {s : State} (hsent : sending ∈ s.sent)
    (hkey : sending.before.cipherKey = some key) {frame : Frame}
    (htype : sending.msgType = frame.header.msgType)
    (hid : sending.requestId = frame.header.requestId)
    (hpayload : sending.frame.payload = frame.payload) (side : Side) (now : Nat) :
    Ideal key s (.deliver side now frame) := by
  intro _ _
  obtain ⟨cipher, hcipher, rfl⟩ := Option.map_eq_some_iff.mp hkey
  have hseals : sending.Seals cipher.key cipher.nonce (aad sending.msgType sending.requestId)
      (Externals.aeadEncrypt cipher.key cipher.nonce (aad sending.msgType sending.requestId)
        sending.plaintext) :=
    ⟨cipher, hcipher, rfl, rfl, rfl, rfl⟩
  refine ⟨sending, hsent, ?_⟩
  rw [← hpayload, hseals.payload_eq, List.take_left' cipher.length_nonce,
    List.drop_left' cipher.length_nonce, ← htype, ← hid]
  exact hseals

/-- Under the flags it was sent with, the plaintext gives the content. -/
theorem gives_of_open {pipeline : PayloadPipeline} {now : Nat} {frame : Frame}
    {body : Bytes} (hx : Externals.Lossless)
    (hcompressed : frame.header.flags.compressed = sending.frame.header.flags.compressed)
    (hcacheRef : frame.header.flags.cacheRef = sending.frame.header.flags.cacheRef)
    (hdecrypt : pipeline.decryptStage frame = .ok sending.plaintext)
    (haccept : (pipeline.unwrap now frame).1 = .ok body) :
    sending.content.Gives pipeline.cache now body := by
  obtain ⟨side, before, msgType, requestId, content⟩ := sending
  cases content with
  | body payload =>
      have hflags := wrap_flags before msgType requestId payload
      have hopen : (pipeline.decryptStage frame).bind
          (maybeDecompress · frame.header.flags.compressed) = .ok payload := by
        rw [hdecrypt, hcompressed.trans hflags.1]
        exact maybeDecompress_maybeCompress hx payload
      rw [unwrap_of_open hopen, hcacheRef.trans hflags.2.1] at haccept
      exact Except.ok.inj haccept
  | reference key =>
      have hflags := wrapCacheRef_flags before msgType requestId key
      have hopen : (pipeline.decryptStage frame).bind
          (maybeDecompress · frame.header.flags.compressed) = .ok key.asBytes := by
        rw [hdecrypt, hcompressed.trans hflags.1]
        rfl
      rw [unwrap_of_open hopen, hcacheRef.trans hflags.2.1, if_pos rfl,
        CacheKey.fromSlice_asBytes] at haccept
      simp only [ResultCache.get_fst] at haccept
      show pipeline.cache.live now key = some body
      cases hlive : pipeline.cache.live now key with
      | none =>
          rw [hlive] at haccept
          cases haccept
      | some value =>
          rw [hlive] at haccept
          exact congrArg some (Except.ok.inj haccept)

end Sending

/-- An accepted frame passed the decryption stage. -/
theorem exists_decryptStage {pipeline : PayloadPipeline} {now : Nat} {frame : Frame} {body : Bytes}
    (haccept : (pipeline.unwrap now frame).1 = .ok body) :
    ∃ data, pipeline.decryptStage frame = .ok data := by
  unfold unwrap at haccept
  cases hstage : pipeline.decryptStage frame with
  | error e =>
      rw [hstage] at haccept
      cases haccept
  | ok data => exact ⟨data, rfl⟩

/-- The decryption stage of an encrypted frame is the AEAD under the key of the pipeline. -/
theorem aeadDecrypt_of_decryptStage {pipeline : PayloadPipeline} {key : Bytes32} {frame : Frame}
    {data : Bytes} (hkey : pipeline.cipherKey = some key)
    (hencrypted : frame.header.flags.encrypted = true)
    (hstage : pipeline.decryptStage frame = .ok data) :
    Externals.aeadDecrypt key (frame.payload.take 12)
      (aad frame.header.msgType frame.header.requestId) (frame.payload.drop 12) = some data := by
  obtain ⟨cipher, hcipher, rfl⟩ := Option.map_eq_some_iff.mp hkey
  unfold decryptStage at hstage
  rw [if_pos hencrypted, hcipher] at hstage
  dsimp only at hstage
  unfold SessionCipher.decrypt at hstage
  by_cases hshort : frame.payload.length < 12 + 16
  · rw [if_pos hshort] at hstage
    cases hstage
  · rw [if_neg hshort] at hstage
    cases hopen : Externals.aeadDecrypt cipher.key (frame.payload.take 12)
        (aad frame.header.msgType frame.header.requestId) (frame.payload.drop 12) with
    | none =>
        rw [hopen] at hstage
        cases hstage
    | some plain =>
        rw [hopen] at hstage
        exact congrArg some (Except.ok.inj hstage)

/-- **Main result.** Over any run, an encrypted frame that `unwrap` accepts has the payload, the
message type and the request id of a frame that a holder of the key sealed before; when it also has
that frame's `COMPRESSED` and `CACHE_REF` bits, the body is the one that was sent. -/
theorem accepted_was_sealed (hx : Externals.Lossless) {key : Bytes32}
    {pipeline : Side → PayloadPipeline} (hkeyed : ∀ side, (pipeline side).cipherKey = some key)
    {ops : List Op} {s : State} (hrun : Run step (Ideal key) (init pipeline) ops s) {side : Side}
    {now : Nat} {frame : Frame} {body : Bytes} (hideal : Ideal key s (.deliver side now frame))
    (hencrypted : frame.header.flags.encrypted = true)
    (haccept : ((s.pipeline side).unwrap now frame).1 = .ok body) :
    ∃ sending ∈ s.sent, sending.msgType = frame.header.msgType ∧
      sending.requestId = frame.header.requestId ∧ sending.frame.payload = frame.payload ∧
      (frame.header.flags.compressed = sending.frame.header.flags.compressed →
        frame.header.flags.cacheRef = sending.frame.header.flags.cacheRef →
          sending.content.Gives (s.pipeline side).cache now body) := by
  have hkey := hrun.invariant (fun _ _ _ hkeyed _ hstep => keyed_step hkeyed hstep) hkeyed side
  obtain ⟨data, hstage⟩ := exists_decryptStage haccept
  have hopen := aeadDecrypt_of_decryptStage hkey hencrypted hstage
  obtain ⟨sending, hsent, hseals⟩ := hideal hencrypted (Option.isSome_of_eq_some hopen)
  have hpayload := hseals.payload_eq
  obtain ⟨cipher, _, _, _, had, hcipher⟩ := hseals
  obtain ⟨htype, hid⟩ := aad_injective had
  refine ⟨sending, hsent, htype, hid, ?_, ?_⟩
  · rw [hpayload, List.take_append_drop]
  · intro hcompressed hcacheRef
    have hplain : data = sending.plaintext := by
      rw [← hcipher, hx.decrypt_encrypt] at hopen
      exact (Option.some.inj hopen).symm
    exact sending.gives_of_open hx hcompressed hcacheRef (hplain ▸ hstage) haccept

/-! ### A session with three results -/

section Recorded

omit [Externals]

/-- What one AEAD call takes and what it gives. -/
structure SealedCall where
  key : Bytes32
  nonce : Bytes
  ad : Bytes
  plain : Bytes
  ciphertext : Bytes

def nines : Bytes32 := ⟨List.replicate 32 9, rfl⟩

def zeroTag : Bytes := List.replicate 16 0

def resultCall (counter requestId : Nat) (plain ciphertext : Bytes) : SealedCall :=
  ⟨nines, List.replicate 4 0 ++ toLE 8 counter, PayloadPipeline.aad .callToolResult (.ofNat requestId), plain, ciphertext⟩

def recorded : List SealedCall := [
  resultCall 0 8 [115, 101, 99, 114, 101, 116] [237, 97, 221, 138, 246, 174, 66, 156, 245, 30, 221, 117,
    117, 133, 193, 99, 58, 99, 255, 234, 86, 96],
  resultCall 1 9 [1, 0, 0, 0, 16, 5] [51, 237, 23, 157, 46, 209, 96, 225, 120, 69, 209, 231, 155, 159,
    101, 255, 234, 151, 254, 162, 130, 79],
  resultCall 2 10 (List.replicate 32 0) [26, 39, 216, 113, 96, 92, 180, 139, 17, 212, 154, 74, 115, 89, 169,
    174, 200, 55, 83, 236, 253, 44, 133, 77, 82, 3, 117, 163, 105, 68, 235, 229, 144, 172, 108, 36,
    245, 10, 58, 123, 82, 80, 123, 9, 228, 75, 8, 232]]

def sealedAs (key : Bytes32) (nonce ad plain : Bytes) : Option SealedCall :=
  recorded.find? fun call =>
    call.key = key ∧ call.nonce = nonce ∧ call.ad = ad ∧ call.plain = plain

def openedAs (key : Bytes32) (nonce ad ciphertext : Bytes) : Option SealedCall :=
  recorded.find? fun call =>
    call.key = key ∧ call.nonce = nonce ∧ call.ad = ad ∧ call.ciphertext = ciphertext

/-- Calls that are not recorded carry a tag of zeros. -/
def encryptRecorded (key : Bytes32) (nonce ad plain : Bytes) : Bytes :=
  match sealedAs key nonce ad plain with
  | some call => call.ciphertext
  | none => plain ++ zeroTag

def decryptRecorded (key : Bytes32) (nonce ad ciphertext : Bytes) : Option Bytes :=
  match openedAs key nonce ad ciphertext with
  | some call => some call.plain
  | none =>
      if ciphertext.drop (ciphertext.length - 16) = zeroTag then
        some (ciphertext.take (ciphertext.length - 16))
      else none

theorem recorded_ciphertext : ∀ call ∈ recorded, call.ciphertext.length = call.plain.length + 16 ∧
    call.ciphertext.drop (call.ciphertext.length - 16) ≠ zeroTag ∧
    ∀ other ∈ recorded, other.ciphertext = call.ciphertext → other.plain = call.plain := by
  decide +kernel

theorem zeroTag_suffix (plain : Bytes) :
    (plain ++ zeroTag).length - 16 = plain.length := by
  rw [List.length_append]
  exact Nat.add_sub_cancel _ 16

theorem openedAs_append_zeroTag (key : Bytes32) (nonce ad plain : Bytes) :
    openedAs key nonce ad (plain ++ zeroTag) = none := by
  refine List.find?_eq_none.mpr fun call hcall h => ?_
  have hciphertext : call.ciphertext = plain ++ zeroTag := (of_decide_eq_true h).2.2.2
  refine (recorded_ciphertext call hcall).2.1 ?_
  rw [hciphertext, zeroTag_suffix, List.drop_left]

theorem openedAs_of_sealedAs {key : Bytes32} {nonce ad plain : Bytes} {call : SealedCall}
    (h : sealedAs key nonce ad plain = some call) :
    call ∈ recorded ∧ call.plain = plain ∧
      (openedAs key nonce ad call.ciphertext).map SealedCall.plain = some plain := by
  have hmem := List.mem_of_find?_eq_some h
  have hfound := List.find?_some h
  obtain ⟨hkey, hnonce, had, hplain⟩ := of_decide_eq_true hfound
  refine ⟨hmem, hplain, ?_⟩
  cases hopen : openedAs key nonce ad call.ciphertext with
  | none =>
      exact absurd (decide_eq_true ⟨hkey, hnonce, had, rfl⟩) (List.find?_eq_none.mp hopen call hmem)
  | some other =>
      have hfound := List.find?_some (show recorded.find? _ = some other from hopen)
      have hother := of_decide_eq_true hfound
      rw [Option.map_some, (recorded_ciphertext call hmem).2.2 other
        (List.mem_of_find?_eq_some hopen) hother.2.2.2, hplain]

theorem decryptRecorded_encryptRecorded (key : Bytes32) (nonce ad plain : Bytes) :
    decryptRecorded key nonce ad (encryptRecorded key nonce ad plain) = some plain := by
  unfold encryptRecorded decryptRecorded
  cases hseal : sealedAs key nonce ad plain with
  | some call =>
      obtain ⟨opened, hopen, hplain⟩ := Option.map_eq_some_iff.mp (openedAs_of_sealedAs hseal).2.2
      dsimp only
      rw [hopen]
      exact congrArg some hplain
  | none =>
      dsimp only
      rw [openedAs_append_zeroTag, zeroTag_suffix, List.drop_left, List.take_left]
      exact if_pos rfl

theorem length_encryptRecorded (key : Bytes32) (nonce ad plain : Bytes) :
    (encryptRecorded key nonce ad plain).length = plain.length + 16 := by
  unfold encryptRecorded
  cases hseal : sealedAs key nonce ad plain with
  | some call =>
      obtain ⟨hmem, hplain, _⟩ := openedAs_of_sealedAs hseal
      rw [← hplain]
      exact (recorded_ciphertext call hmem).1
  | none => exact List.length_append

/-- Externals that agree with ChaCha20-Poly1305 on the recorded calls and with LZ4 on the block
of the one literal 5. -/
@[reducible] def chacha : Externals := { Externals.plain with
  decompress := fun payload =>
    if payload = [1, 0, 0, 0, 16, 5] then .ok [5] else .ok (payload.drop 4)
  aeadEncrypt := encryptRecorded
  aeadDecrypt := decryptRecorded }

theorem chacha_lossless : @Externals.Lossless chacha := by
  let _ : Externals := chacha
  refine ⟨fun payload => ?_, decryptRecorded_encryptRecorded, length_encryptRecorded⟩
  have hother : toLE 4 payload.length ++ payload ≠ [1, 0, 0, 0, 16, 5] := by
    intro h
    have hlen := congrArg List.length h
    rw [List.length_append, length_toLE] at hlen
    have htwo : payload.length = 2 := Nat.add_left_cancel hlen
    rw [htwo] at h
    cases (List.append_inj h rfl : toLE 4 2 = [1, 0, 0, 0] ∧ payload = [16, 5]).1
  exact (if_neg hother).trans (congrArg Except.ok (List.drop_left' (length_toLE 4 payload.length)))

def bothKeyed : Side → PayloadPipeline :=
  fun _ => PayloadPipeline.new.enableEncryption nines (List.replicate 4 0) rfl

theorem cipherKey_bothKeyed (side : Side) : (bothKeyed side).cipherKey = some nines := rfl

def secret : Bytes := [115, 101, 99, 114, 101, 116]

def threeResults : List Op := [
  .send .server .callToolResult 8 (.body secret),
  .send .server .callToolResult 9 (.body [1, 0, 0, 0, 16, 5]),
  .send .server .callToolResult 10 (.reference ⟨.zeros⟩)]

def served : State :=
  letI : Externals := chacha
  (((init bothKeyed).send .server .callToolResult 8 (.body secret)).send
    .server .callToolResult 9 (.body [1, 0, 0, 0, 16, 5])).send
    .server .callToolResult 10 (.reference ⟨.zeros⟩)

theorem run_served :
    letI : Externals := chacha
    Run step (Ideal nines) (init bothKeyed) threeResults served :=
  .cons rfl trivial (.cons rfl trivial (.cons rfl trivial (.nil _)))

def firstSending : Sending := ⟨.server, bothKeyed .server, .callToolResult, 8, .body secret⟩

def secondSending : Sending :=
  letI : Externals := chacha
  ⟨.server, firstSending.result.2, .callToolResult, 9, .body [1, 0, 0, 0, 16, 5]⟩

def thirdSending : Sending :=
  letI : Externals := chacha
  ⟨.server, secondSending.result.2, .callToolResult, 10, .reference ⟨.zeros⟩⟩

theorem sent_served : served.sent = [firstSending, secondSending, thirdSending] := rfl

/-- The frame of the first result, unchanged. -/
theorem accepted_was_sealed_secret :
    letI : Externals := chacha
    let frame := firstSending.frame
    ∃ sending ∈ served.sent, sending.msgType = frame.header.msgType ∧
      sending.requestId = frame.header.requestId ∧ sending.frame.payload = frame.payload ∧
      (frame.header.flags.compressed = sending.frame.header.flags.compressed →
        frame.header.flags.cacheRef = sending.frame.header.flags.cacheRef →
          sending.content.Gives (served.pipeline .client).cache 0 secret) := by
  let _ : Externals := chacha
  refine accepted_was_sealed chacha_lossless cipherKey_bothKeyed run_served ?_ rfl ?_
  · exact firstSending.ideal_of_mem (by rw [sent_served]; exact List.mem_cons_self) rfl rfl rfl rfl _ _
  · decide +kernel

/-- The end that gets a frame, the frame and the body `unwrap` returns: a result without its
`ENCRYPTED` bit, one with `COMPRESSED` set, a cache reference without its `CACHE_REF` bit, and a
result sent back to the server. -/
def tampered : List (Side × Frame × Bytes) :=
  letI : Externals := chacha
  [(.client, firstSending.frame.alter fun flags => flags.clear FrameFlags.ENCRYPTED,
      firstSending.frame.payload),
    (.client, secondSending.frame.alter fun flags => flags.set FrameFlags.COMPRESSED, [5]),
    (.client, thirdSending.frame.alter fun flags => flags.clear FrameFlags.CACHE_REF,
      Bytes32.zeros.bytes),
    (.server, firstSending.frame, secret)]

theorem tampered_accepted :
    letI : Externals := chacha
    ∀ delivery ∈ tampered,
      ((served.pipeline delivery.1).unwrap 0 delivery.2.1).1 = .ok delivery.2.2 ∧
        ¬ FromPeer served delivery.1 0 delivery.2.1 delivery.2.2 := by
  decide +kernel

theorem ideal_tampered :
    letI : Externals := chacha
    ∀ delivery ∈ tampered, Ideal nines served (.deliver delivery.1 0 delivery.2.1) := by
  let _ : Externals := chacha
  have hmem : firstSending ∈ served.sent ∧ secondSending ∈ served.sent ∧
      thirdSending ∈ served.sent := by
    rw [sent_served]
    simp
  intro delivery hdelivery
  simp only [tampered, List.mem_cons, List.not_mem_nil, or_false] at hdelivery
  rcases hdelivery with rfl | rfl | rfl | rfl
  · refine firstSending.ideal_of_mem hmem.1 ?_ ?_ ?_ ?_ _ _ <;> rfl
  · refine secondSending.ideal_of_mem hmem.2.1 ?_ ?_ ?_ ?_ _ _ <;> rfl
  · refine thirdSending.ideal_of_mem hmem.2.2 ?_ ?_ ?_ ?_ _ _ <;> rfl
  · refine firstSending.ideal_of_mem hmem.1 ?_ ?_ ?_ ?_ _ _ <;> rfl

/-- None of the four bodies was sent by the peer under that header, and all are accepted. -/
theorem altered_flags_accepted :
    letI : Externals := chacha
    Run step (Ideal nines) (init bothKeyed) threeResults served ∧
      ∀ delivery ∈ tampered, Ideal nines served (.deliver delivery.1 0 delivery.2.1) ∧
        ((served.pipeline delivery.1).unwrap 0 delivery.2.1).1 = .ok delivery.2.2 ∧
        ¬ FromPeer served delivery.1 0 delivery.2.1 delivery.2.2 :=
  ⟨run_served, fun delivery hdelivery =>
    ⟨ideal_tampered delivery hdelivery, tampered_accepted delivery hdelivery⟩⟩

end Recorded

end Tamper

end Ohmcp
