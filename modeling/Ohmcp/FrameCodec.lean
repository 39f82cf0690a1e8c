import Ohmcp.Frame

/-! What `Frame.decode` does on bytes that `Frame.encode` wrote: it returns the frame and leaves
exactly what follows it, and on a strict beginning of a frame it waits and changes nothing. -/

open LittleEndian

namespace Ohmcp.Frame

@[simp] theorem length_headerBytes (frame : Frame) : frame.headerBytes.length = headerLen := by
  simp [headerBytes, headerLen]

@[simp] theorem length_encode (frame : Frame) :
    frame.encode.length = headerLen + frame.payload.length := by
  rw [encode, List.length_append, length_headerBytes]

theorem toNat_lenU32 {payload : Bytes} (h : payload.length ≤ maxFrameLen) :
    (lenU32 payload).toNat = payload.length := by
  rw [lenU32, UInt32.toNat_ofNat_of_lt']
  exact lt_of_le_of_lt h (by decide)

/-- The fields `decode` reads, on a buffer that starts with a header. -/
theorem headerBytes_fields (frame : Frame) (tail : Bytes) :
    let buf := frame.headerBytes ++ tail
    ofLE (buf.take 2) = frameMagic ∧ buf.getD 2 0 = protocolVersion ∧
      buf.getD 3 0 = frame.header.flags.bits ∧ buf.getD 4 0 = frame.header.msgType.toU8 ∧
      ofLE ((buf.drop 5).take 8) = frame.header.requestId.toNat ∧
      ofLE ((buf.drop 13).take 4) = (lenU32 frame.payload).toNat ∧
      buf.drop headerLen = tail := by
  set idBytes := toLE 8 frame.header.requestId.toNat with hid
  set lenBytes := toLE 4 (lenU32 frame.payload).toNat with hlen
  have hatMagic : frame.headerBytes ++ tail = toLE 2 frameMagic ++ (protocolVersion ::
      frame.header.flags.bits :: frame.header.msgType.toU8 :: (idBytes ++ (lenBytes ++ tail))) := by
    simp [headerBytes, hid, hlen]
  have hatId : frame.headerBytes ++ tail = (toLE 2 frameMagic ++ [protocolVersion,
      frame.header.flags.bits, frame.header.msgType.toU8]) ++ (idBytes ++ (lenBytes ++ tail)) := by
    simp [headerBytes, hid, hlen]
  have hatLen : frame.headerBytes ++ tail = (toLE 2 frameMagic ++ [protocolVersion,
      frame.header.flags.bits, frame.header.msgType.toU8] ++ idBytes) ++ (lenBytes ++ tail) := by
    simp [headerBytes, hid, hlen]
  refine ⟨?_, rfl, rfl, rfl, ?_, ?_, List.drop_left' (length_headerBytes frame)⟩
  · rw [hatMagic, List.take_left' (length_toLE _ _)]
    exact ofLE_toLE_of_lt (by decide)
  · rw [hatId, List.drop_left' (by simp), List.take_left' (length_toLE _ _)]
    exact ofLE_toLE_of_lt frame.header.requestId.toNat_lt
  · rw [hatLen, List.drop_left' (by simp [hid]), List.take_left' (length_toLE _ _)]
    exact ofLE_toLE_of_lt (lenU32 frame.payload).toNat_lt

/-- After a whole header `decode` waits for the stated number of payload bytes. -/
theorem decode_headerBytes_append (frame : Frame) (tail : Bytes)
    (hlen : frame.payload.length ≤ maxFrameLen) :
    decode (frame.headerBytes ++ tail) =
      if tail.length < frame.payload.length then (.ok .none, frame.headerBytes ++ tail)
      else (.ok (some ⟨{ frame.header with payloadLen := lenU32 frame.payload },
          tail.take frame.payload.length⟩), tail.drop frame.payload.length) := by
  obtain ⟨hmagic, hversion, hflags, htype, hid, hpayload, hdrop⟩ := headerBytes_fields frame tail
  rw [toNat_lenU32 hlen] at hpayload
  have hlong : ¬ (frame.headerBytes ++ tail).length < headerLen := by
    rw [List.length_append, length_headerBytes]
    omega
  have hrest : (frame.headerBytes ++ tail).drop (headerLen + frame.payload.length) =
      tail.drop frame.payload.length := by
    rw [← List.drop_drop, hdrop]
  unfold decode
  rw [if_neg hlong, if_neg (not_not.mpr hmagic), if_neg (not_not.mpr hversion), hpayload]
  simp only [Nat.not_lt.mpr hlen, if_false, List.length_append, length_headerBytes,
    Nat.add_lt_add_iff_left]
  by_cases hshort : tail.length < frame.payload.length
  · rw [if_pos hshort, if_pos hshort]
  · rw [if_neg hshort, if_neg hshort, htype, MsgType.fromU8_toU8, hflags, hid, hdrop, hrest]
    simp only [UInt64.ofNat_toNat]
    rfl

/-- Decoding undoes encoding and leaves what follows the frame. -/
theorem decode_encode_append {frame : Frame} (hwf : frame.WellFormed) (rest : Bytes) :
    decode (frame.encode ++ rest) = (.ok (some frame), rest) := by
  rw [encode, List.append_assoc, decode_headerBytes_append frame _ hwf.length_le]
  rw [if_neg (by rw [List.length_append]; omega), List.take_left, List.drop_left,
    ← hwf.payloadLen_eq]

theorem decode_encode {frame : Frame} (hwf : frame.WellFormed) :
    decode frame.encode = (.ok (some frame), []) := by
  rw [← List.append_nil frame.encode, decode_encode_append hwf]

/-- The first frame of a stream is determined. -/
theorem encode_append_inj {frame head : Frame} {more rest : Bytes} (hwf : frame.WellFormed)
    (hhead : head.WellFormed) (h : frame.encode ++ more = head.encode ++ rest) :
    frame = head ∧ more = rest := by
  have hdecode := decode_encode_append hwf more
  rw [h, decode_encode_append hhead] at hdecode
  obtain ⟨hframe, hrest⟩ := Prod.mk.inj hdecode
  exact ⟨(Option.some.inj (Except.ok.inj hframe)).symm, hrest.symm⟩

/-- A frame over the receiver's limit is refused as soon as its header is there. -/
theorem decode_of_too_large {frame : Frame} (hlarge : maxFrameLen < frame.payload.length)
    (hlen : frame.payload.length < 2 ^ 32) (rest : Bytes) :
    decode (frame.encode ++ rest) =
      (.error (.frameTooLarge frame.payload.length), frame.encode ++ rest) := by
  rw [encode, List.append_assoc]
  obtain ⟨hmagic, hversion, _, _, _, hpayload, _⟩ := headerBytes_fields frame (frame.payload ++ rest)
  have hlong : ¬ (frame.headerBytes ++ (frame.payload ++ rest)).length < headerLen := by
    rw [List.length_append, length_headerBytes]
    omega
  rw [lenU32, UInt32.toNat_ofNat_of_lt' hlen] at hpayload
  unfold decode
  rw [if_neg hlong, if_neg (not_not.mpr hmagic), if_neg (not_not.mpr hversion), hpayload]
  exact if_pos hlarge

/-- Of a strict beginning of a frame nothing is returned and nothing is consumed. -/
theorem decode_of_append_encode {frame : Frame} (hwf : frame.WellFormed) {part more : Bytes}
    (hsplit : part ++ more = frame.encode) (hmore : more ≠ []) :
    decode part = (.ok .none, part) := by
  by_cases hshort : part.length < headerLen
  · unfold decode
    rw [if_pos hshort]
  · obtain ⟨tail, rfl⟩ : ∃ tail, part = frame.headerBytes ++ tail := by
      refine ⟨part.drop headerLen, ?_⟩
      have hhead : part.take headerLen = frame.headerBytes := by
        have h := congrArg (List.take headerLen) hsplit
        rw [List.take_append_of_le_length (by omega), encode] at h
        rw [h, List.take_left' (length_headerBytes frame)]
      rw [← hhead, List.take_append_drop]
    rw [encode, List.append_assoc] at hsplit
    have hpayload := List.append_cancel_left hsplit
    have hlt : tail.length < frame.payload.length := by
      have hpos := List.length_pos_iff.mpr hmore
      rw [← hpayload, List.length_append]
      omega
    rw [decode_headerBytes_append frame _ hwf.length_le, if_pos hlt]

theorem decode_nil : decode [] = (.ok .none, []) := rfl

/-- The buffer only changes together with a returned frame, and then loses its header at least. -/
theorem decode_cases (buf : Bytes) :
    ((∀ frame, (decode buf).1 ≠ .ok (some frame)) ∧ (decode buf).2 = buf) ∨
      ((∃ frame, (decode buf).1 = .ok (some frame)) ∧
        (decode buf).2.length + headerLen ≤ buf.length) := by
  unfold decode
  dsimp only
  split_ifs
  · exact .inl ⟨nofun, rfl⟩
  · exact .inl ⟨nofun, rfl⟩
  · exact .inl ⟨nofun, rfl⟩
  · exact .inl ⟨nofun, rfl⟩
  · exact .inl ⟨nofun, rfl⟩
  · cases htype : MsgType.fromU8 (buf.getD 4 0) with
    | error e => exact .inl ⟨nofun, rfl⟩
    | ok msgType =>
        refine .inr ⟨⟨_, rfl⟩, ?_⟩
        simp only [List.length_drop]
        omega

theorem decode_snd_of_ne {buf : Bytes} (h : ∀ frame, (decode buf).1 ≠ .ok (some frame)) :
    (decode buf).2 = buf := by
  rcases decode_cases buf with ⟨_, hsame⟩ | ⟨⟨frame, hframe⟩, _⟩
  · exact hsame
  · exact absurd hframe (h frame)

/-- A returned frame shortens the buffer. -/
theorem length_lt_of_decode {buf rest : Bytes} {frame : Frame}
    (h : decode buf = (.ok (some frame), rest)) : rest.length < buf.length := by
  rcases decode_cases buf with ⟨hne, _⟩ | ⟨_, hlen⟩
  · exact absurd (congrArg Prod.fst h) (hne frame)
  · rw [h] at hlen
    simp only [headerLen] at hlen
    omega

/-- The bytes of a list of frames queued one after another. -/
def encodeAll (frames : List Frame) : Bytes := frames.flatMap encode

@[simp] theorem encodeAll_nil : encodeAll [] = [] := rfl

@[simp] theorem encodeAll_cons (frame : Frame) (frames : List Frame) :
    encodeAll (frame :: frames) = frame.encode ++ encodeAll frames := rfl

@[simp] theorem encodeAll_append (left right : List Frame) :
    encodeAll (left ++ right) = encodeAll left ++ encodeAll right := List.flatMap_append

theorem encode_ne_nil (frame : Frame) : frame.encode ≠ [] := by
  intro h
  have hlen := congrArg List.length h
  rw [length_encode, List.length_nil] at hlen
  simp only [headerLen] at hlen
  omega

/-! ### Streams cut anywhere -/

/-- A strict beginning of some frame's bytes. -/
def Incomplete (part : Bytes) : Prop :=
  ∃ (frame : Frame) (more : Bytes), frame.WellFormed ∧ part ++ more = frame.encode ∧ more ≠ []

theorem Incomplete.decode_eq {part : Bytes} (h : Incomplete part) :
    decode part = (.ok .none, part) := by
  obtain ⟨frame, more, hwf, hsplit, hmore⟩ := h
  exact decode_of_append_encode hwf hsplit hmore

/-- Where there is a complete frame there is no beginning of one. -/
theorem Incomplete.ne_encode_append {part : Bytes} (h : Incomplete part) {frame : Frame}
    (hwf : frame.WellFormed) (more : Bytes) : part ≠ frame.encode ++ more := by
  rintro rfl
  have hdecode := h.decode_eq
  rw [decode_encode_append hwf] at hdecode
  cases hdecode

theorem Incomplete.of_append {part more : Bytes} (h : Incomplete (part ++ more)) :
    Incomplete part := by
  obtain ⟨frame, rest, hwf, hsplit, hrest⟩ := h
  exact ⟨frame, more ++ rest, hwf, by rw [← hsplit, List.append_assoc],
    List.append_ne_nil_of_right_ne_nil more hrest⟩

theorem incomplete_nil : Incomplete [] :=
  ⟨.new .ping 0 [], _, ⟨rfl, by decide⟩, rfl, encode_ne_nil _⟩

/-- What has arrived of a stream of frames is some of the frames, complete, and a beginning of
the next. -/
theorem exists_split_of_append {frames : List Frame} {part arrived rest : Bytes}
    (hwf : ∀ frame ∈ frames, frame.WellFormed) (hpart : Incomplete part)
    (h : arrived ++ rest = encodeAll frames ++ part) :
    ∃ first later begun, frames = first ++ later ∧ arrived = encodeAll first ++ begun ∧
      begun ++ rest = encodeAll later ++ part ∧ Incomplete begun := by
  induction frames generalizing arrived with
  | nil =>
      rw [encodeAll_nil, List.nil_append] at h
      exact ⟨[], [], arrived, rfl, rfl, h, Incomplete.of_append (h ▸ hpart)⟩
  | cons frame frames ih =>
      obtain ⟨hframe, hframes⟩ := List.forall_mem_cons.mp hwf
      rw [encodeAll_cons, List.append_assoc] at h
      rcases List.append_eq_append_iff.mp h with ⟨mid, hcode, hrest⟩ | ⟨mid, harrived, hrest⟩
      · by_cases hmid : mid = []
        · subst hmid
          rw [List.append_nil] at hcode
          refine ⟨[frame], frames, [], rfl, ?_, ?_, incomplete_nil⟩
          · rw [encodeAll_cons, encodeAll_nil, List.append_nil, List.append_nil, hcode]
          · rw [hrest, List.nil_append, List.nil_append]
        · refine ⟨[], frame :: frames, arrived, rfl, rfl, ?_, frame, mid, hframe, hcode.symm, hmid⟩
          rw [h, encodeAll_cons, List.append_assoc]
      · obtain ⟨first, later, begun, rfl, rfl, hlater, hbegun⟩ := ih hframes hrest.symm
        exact ⟨frame :: first, later, begun, rfl,
          by rw [harrived, encodeAll_cons, List.append_assoc], hlater, hbegun⟩

end Ohmcp.Frame
