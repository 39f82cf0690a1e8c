import Ohmcp.FrameStream
import Ohmcp.ExactCodec
import Ohmcp.PayloadPipeline

/-! The limit on the length of a frame is the receiver's alone: which frames that a sender queues its
peer takes. -/

open LittleEndian

namespace Ohmcp

namespace FrameWriter

/-- The bytes that queueing a frame adds. -/
def added (writer : FrameWriter) (frame : Frame) : Bytes :=
  (writer.queue frame).buf.drop writer.buf.length

theorem added_eq (writer : FrameWriter) (frame : Frame) : writer.added frame = frame.encode :=
  List.drop_left

end FrameWriter

namespace Frame

/-- What is queued of a frame is taken by the peer with the same payload, and states how many payload
bytes follow. -/
structure Accepted (writer : FrameWriter) (frame : Frame) : Prop where
  taken : ∀ rest, ∃ frame', decode (writer.added frame ++ rest) = (.ok (some frame'), rest) ∧
    frame'.payload = frame.payload
  length_field : ofLE (((writer.added frame).drop 13).take 4) = frame.payload.length

theorem accepted_iff (writer : FrameWriter) {frame : Frame}
    (hlen : frame.header.payloadLen = lenU32 frame.payload) :
    Accepted writer frame ↔ frame.payload.length ≤ maxFrameLen := by
  refine ⟨fun h => ?_, fun h => ?_⟩
  · obtain ⟨frame', hdecode, hsame⟩ := h.taken []
    rw [← hsame]
    exact (of_decode_some hdecode).1.length_le
  · have hwf : frame.WellFormed := ⟨hlen, h⟩
    refine ⟨fun rest => ⟨frame, ?_, rfl⟩, ?_⟩
    · rw [writer.added_eq]
      exact decode_encode_append hwf rest
    · obtain ⟨_, _, _, _, _, hfield, _⟩ := headerBytes_fields frame frame.payload
      rw [writer.added_eq, encode, hfield]
      exact toNat_lenU32 h

end Frame

variable [Externals]

namespace PayloadPipeline

theorem payloadLen_wrap (pipeline : PayloadPipeline) (msgType : MsgType) (requestId : UInt64)
    (payload : Bytes) : (pipeline.wrap msgType requestId payload).1.header.payloadLen =
      Frame.lenU32 (pipeline.wrap msgType requestId payload).1.payload := rfl

/-- The length of a wrapped payload: compressed where that helps, and 28 bytes longer if encrypted. -/
theorem length_wrap (hx : Externals.Lossless) (pipeline : PayloadPipeline) (msgType : MsgType)
    (requestId : UInt64) (payload : Bytes) :
    (pipeline.wrap msgType requestId payload).1.payload.length =
      (maybeCompress payload).1.length + if pipeline.encryptionEnabled then 28 else 0 := by
  unfold wrap encryptStage encryptionEnabled
  cases pipeline.cipher with
  | none => rfl
  | some cipher =>
      simp only [SessionCipher.encrypt, List.length_append, SessionCipher.length_nonce,
        hx.length_encrypt, Option.isSome_some, if_true]
      omega

end PayloadPipeline

/-- **The limit.** For every payload, message type and id, with encryption or without: the peer takes the
wrapped frame if and only if the payload, compressed where that helps and expanded by the cipher, is
within the limit; and a frame that is not wrapped, if and only if its payload is. -/
theorem frames_accepted_iff (hx : Externals.Lossless) (writer : FrameWriter)
    (pipeline : PayloadPipeline) (msgType : MsgType) (requestId : UInt64) (payload : Bytes) :
    (Frame.Accepted writer (pipeline.wrap msgType requestId payload).1 ↔
        (maybeCompress payload).1.length + (if pipeline.encryptionEnabled then 28 else 0) ≤
          maxFrameLen) ∧
      (Frame.Accepted writer (Frame.new msgType requestId payload) ↔
        payload.length ≤ maxFrameLen) := by
  refine ⟨?_, Frame.accepted_iff writer rfl⟩
  rw [Frame.accepted_iff writer (pipeline.payloadLen_wrap msgType requestId payload),
    PayloadPipeline.length_wrap hx]

omit [Externals] in
/-- Bytes of a linear congruential generator, in which a compressor finds nothing to share. -/
def noise : Nat → Nat → Bytes
  | _, 0 => []
  | seed, len + 1 =>
      UInt8.ofNat (seed / 2 ^ 16) :: noise ((seed * 1103515245 + 12345) % 2 ^ 31) len

omit [Externals] in
theorem length_noise (seed len : Nat) : (noise seed len).length = len := by
  induction len generalizing seed with
  | zero => rfl
  | succ len ih => rw [noise, List.length_cons, ih]

omit [Externals] in
theorem maybeCompress_plain (payload : Bytes) : letI : Externals := .plain
    (maybeCompress payload).1 = payload := by
  let _ : Externals := .plain
  have hlonger : (Externals.compress payload).length = 4 + payload.length := by
    change (LittleEndian.toLE 4 payload.length ++ payload).length = _
    rw [List.length_append, LittleEndian.length_toLE]
  unfold maybeCompress
  dsimp only
  rw [hlonger]
  split_ifs
  · rfl
  · omega
  · rfl

omit [Externals] in
/-- An encrypted payload that does not compress and just leaves room for the 28 bytes, and one of the
greatest length in a frame that is not wrapped. -/
theorem frames_accepted_full : letI : Externals := .plain
    let payload := noise 1 (maxFrameLen - 28)
    let pipeline := PayloadPipeline.new.enableEncryption .zeros [0, 0, 0, 0] length_zeroPrefix
    Frame.Accepted .new (pipeline.wrap .callTool 1 payload).1 ∧
      (pipeline.wrap .callTool 1 payload).1.payload.length = maxFrameLen ∧
      Frame.Accepted .new (Frame.new .callTool 1 (noise 1 maxFrameLen)) := by
  let _ : Externals := .plain
  intro payload pipeline
  have hlen : payload.length = maxFrameLen - 28 := length_noise 1 _
  have hmax : maxFrameLen = 2 ^ 26 := by decide
  clear_value payload
  have hlimit : (maybeCompress payload).1.length +
      (if pipeline.encryptionEnabled then 28 else 0) = maxFrameLen := by
    have hsame : (maybeCompress payload).1 = payload := maybeCompress_plain payload
    have hencrypted : pipeline.encryptionEnabled = true := rfl
    rw [hsame, hlen, if_pos hencrypted]
    omega
  have haccepted := frames_accepted_iff Externals.plain_lossless .new pipeline .callTool 1 payload
  refine ⟨haccepted.1.mpr hlimit.le, ?_, ?_⟩
  · rw [PayloadPipeline.length_wrap Externals.plain_lossless]
    exact hlimit
  · have hnoise := frames_accepted_iff Externals.plain_lossless .new pipeline .callTool 1
      (noise 1 maxFrameLen)
    exact hnoise.2.mpr (length_noise 1 _).le

omit [Externals] in
/-- A payload within the limit that does not compress: encryption takes it over, and the peer refuses
the frame that was queued. -/
theorem encrypted_refused : letI : Externals := .plain
    let payload := noise 1 (maxFrameLen - 27)
    let pipeline := PayloadPipeline.new.enableEncryption .zeros [0, 0, 0, 0] length_zeroPrefix
    payload.length ≤ maxFrameLen ∧
      ¬ Frame.Accepted .new (pipeline.wrap .callTool 1 payload).1 := by
  let _ : Externals := .plain
  intro payload pipeline
  have hlen : payload.length = maxFrameLen - 27 := length_noise 1 _
  have hmax : maxFrameLen = 2 ^ 26 := by decide
  clear_value payload
  refine ⟨by omega, fun h => ?_⟩
  have hlimit := (Frame.accepted_iff .new (pipeline.payloadLen_wrap .callTool 1 payload)).mp h
  rw [PayloadPipeline.length_wrap Externals.plain_lossless] at hlimit
  have hsame : (maybeCompress payload).1 = payload := maybeCompress_plain payload
  have hencrypted : pipeline.encryptionEnabled = true := rfl
  rw [hsame, hlen, if_pos hencrypted] at hlimit
  omega

end Ohmcp
