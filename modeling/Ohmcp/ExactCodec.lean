import Ohmcp.FrameCodec

/-! `Frame.decode` on every buffer: it returns a frame exactly for the bytes `Frame.encode` writes,
waits exactly for what a valid header announces, and more bytes change no outcome but the wait. -/

open LittleEndian

namespace Ohmcp

theorem MsgType.toU8_of_fromU8 {byte : UInt8} {msgType : MsgType}
    (h : fromU8 byte = .ok msgType) : msgType.toU8 = byte := by
  have hall : ∀ byte : UInt8, (match fromU8 byte with
      | .ok msgType => msgType.toU8 == byte
      | .error _ => true) = true := by
    decide +kernel
  have hbyte := hall byte
  rw [h] at hbyte
  exact beq_iff_eq.mp hbyte

namespace Frame

/-- The payload length a header states. -/
def statedLen (buf : Bytes) : Nat := ofLE ((buf.drop 13).take 4)

/-- The header is complete, and its magic, version and length are valid. -/
structure Announces (buf : Bytes) : Prop where
  complete : headerLen ≤ buf.length
  magic_eq : ofLE (buf.take 2) = frameMagic
  version_eq : buf.getD 2 0 = protocolVersion
  length_le : statedLen buf ≤ maxFrameLen

theorem getD_append_left {i : Nat} {buf : Bytes} (h : i < buf.length) (more : Bytes) :
    (buf ++ more).getD i 0 = buf.getD i 0 := by
  rw [List.getD_eq_getElem?_getD, List.getD_eq_getElem?_getD, List.getElem?_append_left h]

theorem take_drop_append {i n : Nat} {buf : Bytes} (h : i + n ≤ buf.length) (more : Bytes) :
    ((buf ++ more).drop i).take n = (buf.drop i).take n := by
  rw [List.drop_append_of_le_length (by omega),
    List.take_append_of_le_length (by rw [List.length_drop]; omega)]

theorem toLE_ofLE_of_length {width : Nat} {bytes : Bytes} (h : bytes.length = width) :
    toLE width (ofLE bytes) = bytes := h ▸ toLE_ofLE bytes

/-- A buffer with a header, field by field. -/
theorem split_header {buf : Bytes} (h : headerLen ≤ buf.length) :
    buf = buf.take 2 ++ (buf.getD 2 0 :: buf.getD 3 0 :: buf.getD 4 0 ::
      ((buf.drop 5).take 8 ++ ((buf.drop 13).take 4 ++ buf.drop headerLen))) := by
  have hget : ∀ i, i < headerLen → buf.drop i = buf.getD i 0 :: buf.drop (i + 1) := by
    intro i hi
    have hlt : i < buf.length := lt_of_lt_of_le hi h
    rw [List.drop_eq_getElem_cons hlt, List.getD_eq_getElem?_getD, List.getElem?_eq_getElem hlt,
      Option.getD_some]
  have hlen : (buf.drop 13).take 4 ++ buf.drop headerLen = buf.drop 13 := by
    rw [show buf.drop headerLen = (buf.drop 13).drop 4 by rw [List.drop_drop]; rfl,
      List.take_append_drop]
  have hid : (buf.drop 5).take 8 ++ buf.drop 13 = buf.drop 5 := by
    rw [show buf.drop 13 = (buf.drop 5).drop 8 by rw [List.drop_drop], List.take_append_drop]
  rw [hlen, hid, ← hget 4 (by decide), ← hget 3 (by decide), ← hget 2 (by decide),
    List.take_append_drop]

/-- What `decode` does once a valid header is there. -/
theorem Announces.decode_eq {buf : Bytes} (h : Announces buf) :
    decode buf =
      if buf.length < headerLen + statedLen buf then (.ok .none, buf)
      else
        match MsgType.fromU8 (buf.getD 4 0) with
        | .error e => (.error e, buf)
        | .ok msgType =>
            (.ok (some ⟨⟨⟨buf.getD 3 0⟩, msgType, UInt64.ofNat (ofLE ((buf.drop 5).take 8)),
                UInt32.ofNat (statedLen buf)⟩, (buf.drop headerLen).take (statedLen buf)⟩),
              buf.drop (headerLen + statedLen buf)) := by
  rw [decode, if_neg (Nat.not_lt.mpr h.complete), if_neg (not_not.mpr h.magic_eq),
    if_neg (not_not.mpr h.version_eq)]
  exact if_neg (Nat.not_lt.mpr h.length_le)

/-- Without one, a short buffer waits and a long one is refused for good. -/
theorem decode_of_not_announces {buf : Bytes} (h : ¬ Announces buf) :
    (buf.length < headerLen ∧ decode buf = (.ok .none, buf)) ∨
      (headerLen ≤ buf.length ∧ ∃ e, ∀ more, decode (buf ++ more) = (.error e, buf ++ more)) := by
  by_cases hshort : buf.length < headerLen
  · exact .inl ⟨hshort, by rw [decode, if_pos hshort]⟩
  have hcomplete : headerLen ≤ buf.length := Nat.not_lt.mp hshort
  have hlong : ∀ more, ¬ (buf ++ more).length < headerLen := by
    intro more
    rw [List.length_append]
    omega
  have hwide : 17 ≤ buf.length := hcomplete
  have htake : ∀ more : Bytes, (buf ++ more).take 2 = buf.take 2 :=
    fun more => List.take_append_of_le_length (by omega)
  have hversion : ∀ more : Bytes, (buf ++ more).getD 2 0 = buf.getD 2 0 :=
    getD_append_left (by omega)
  have hstated : ∀ more, ofLE (((buf ++ more).drop 13).take 4) = statedLen buf :=
    fun more => congrArg ofLE (take_drop_append (by omega) more)
  refine .inr ⟨hcomplete, ?_⟩
  by_cases hmagic : ofLE (buf.take 2) = frameMagic
  · by_cases hver : buf.getD 2 0 = protocolVersion
    · have hlarge : maxFrameLen < statedLen buf := by
        by_contra hle
        exact h ⟨hcomplete, hmagic, hver, Nat.not_lt.mp hle⟩
      refine ⟨.frameTooLarge (statedLen buf), fun more => ?_⟩
      rw [decode, if_neg (hlong more), htake, if_neg (not_not.mpr hmagic), hversion,
        if_neg (not_not.mpr hver), hstated]
      exact if_pos hlarge
    · refine ⟨.badVersion (buf.getD 2 0), fun more => ?_⟩
      rw [decode, if_neg (hlong more), htake, if_neg (not_not.mpr hmagic), hversion, if_pos hver]
  · refine ⟨.badMagic, fun more => ?_⟩
    rw [decode, if_neg (hlong more), htake, if_pos hmagic]

/-- More bytes leave a valid header as it is. -/
theorem Announces.append {buf : Bytes} (h : Announces buf) (more : Bytes) :
    Announces (buf ++ more) ∧ statedLen (buf ++ more) = statedLen buf ∧
      (buf ++ more).getD 3 0 = buf.getD 3 0 ∧ (buf ++ more).getD 4 0 = buf.getD 4 0 ∧
      ((buf ++ more).drop 5).take 8 = (buf.drop 5).take 8 := by
  have hwide : 17 ≤ buf.length := h.complete
  have hstated : statedLen (buf ++ more) = statedLen buf :=
    congrArg ofLE (take_drop_append (by omega) more)
  have hget : ∀ i, i < 17 → (buf ++ more).getD i 0 = buf.getD i 0 :=
    fun i hi => getD_append_left (by omega) more
  refine ⟨⟨?_, ?_, ?_, ?_⟩, hstated, hget 3 (by decide), hget 4 (by decide),
    take_drop_append (by omega) more⟩
  · rw [List.length_append]
    exact Nat.le_add_right_of_le h.complete
  · rw [List.take_append_of_le_length (by omega), h.magic_eq]
  · rw [hget 2 (by decide), h.version_eq]
  · rw [hstated]
    exact h.length_le

/-- A returned frame is well-formed, and its bytes are what was taken off the buffer. -/
theorem of_decode_some {buf rest : Bytes} {frame : Frame}
    (h : decode buf = (.ok (some frame), rest)) :
    frame.WellFormed ∧ buf = frame.encode ++ rest := by
  have hannounces : Announces buf := by
    by_contra hnot
    rcases decode_of_not_announces hnot with ⟨_, hwait⟩ | ⟨_, e, herror⟩
    · rw [hwait] at h
      cases h
    · have hthis := herror []
      rw [List.append_nil, h] at hthis
      cases hthis
  rw [hannounces.decode_eq] at h
  by_cases hshort : buf.length < headerLen + statedLen buf
  · rw [if_pos hshort] at h
    cases h
  rw [if_neg hshort] at h
  cases htype : MsgType.fromU8 (buf.getD 4 0) with
  | error e =>
      rw [htype] at h
      cases h
  | ok msgType =>
      rw [htype] at h
      obtain ⟨hframe, hrest⟩ := Prod.mk.inj h
      obtain rfl := Option.some.inj (Except.ok.inj hframe)
      subst hrest
      have hpayload : ((buf.drop headerLen).take (statedLen buf)).length = statedLen buf := by
        rw [List.length_take, List.length_drop]
        omega
      have hlen : lenU32 ((buf.drop headerLen).take (statedLen buf)) =
          UInt32.ofNat (statedLen buf) := congrArg UInt32.ofNat hpayload
      refine ⟨⟨hlen.symm, hpayload.trans_le hannounces.length_le⟩, ?_⟩
      have hwide : 17 ≤ buf.length := hannounces.complete
      have hmagic : toLE 2 frameMagic = buf.take 2 := by
        rw [← hannounces.magic_eq]
        exact toLE_ofLE_of_length (by rw [List.length_take]; omega)
      have hidLen : ((buf.drop 5).take 8).length = 8 := by
        rw [List.length_take, List.length_drop]
        omega
      have hstatedLen : ((buf.drop 13).take 4).length = 4 := by
        rw [List.length_take, List.length_drop]
        omega
      have hid : toLE 8 (UInt64.ofNat (ofLE ((buf.drop 5).take 8))).toNat =
          (buf.drop 5).take 8 := by
        have hlt := ofLE_lt ((buf.drop 5).take 8)
        rw [hidLen] at hlt
        rw [UInt64.toNat_ofNat_of_lt' hlt, toLE_ofLE_of_length hidLen]
      have hstated : toLE 4 (UInt32.ofNat (statedLen buf)).toNat = (buf.drop 13).take 4 := by
        have hlt := ofLE_lt ((buf.drop 13).take 4)
        rw [hstatedLen] at hlt
        rw [statedLen, UInt32.toNat_ofNat_of_lt' hlt, toLE_ofLE_of_length hstatedLen]
      have hrest : (buf.drop headerLen).take (statedLen buf) ++
          buf.drop (headerLen + statedLen buf) = buf.drop headerLen := by
        rw [← List.drop_drop, List.take_append_drop]
      rw [encode, headerBytes, hlen, hid, hstated, hmagic, ← hannounces.version_eq,
        MsgType.toU8_of_fromU8 htype]
      simp only [List.append_assoc, List.cons_append]
      rw [hrest]
      exact split_header hannounces.complete

/-- Which buffers are waited on. -/
theorem decode_waits_iff (buf : Bytes) :
    (decode buf).1 = .ok .none ↔ buf.length < headerLen ∨
      (Announces buf ∧ buf.length < headerLen + statedLen buf) := by
  by_cases hannounces : Announces buf
  · rw [hannounces.decode_eq]
    by_cases hshort : buf.length < headerLen + statedLen buf
    · rw [if_pos hshort]
      exact iff_of_true rfl (.inr ⟨hannounces, hshort⟩)
    · rw [if_neg hshort]
      refine iff_of_false ?_ ?_
      · cases MsgType.fromU8 (buf.getD 4 0) <;> nofun
      · rintro (hlt | ⟨_, hlt⟩)
        · exact Nat.not_lt.mpr hannounces.complete hlt
        · exact hshort hlt
  · rcases decode_of_not_announces hannounces with ⟨hlt, hwait⟩ | ⟨hlong, e, herror⟩
    · rw [hwait]
      exact iff_of_true rfl (.inl hlt)
    · have hthis := herror []
      rw [List.append_nil] at hthis
      rw [hthis]
      refine iff_of_false nofun ?_
      rintro (hlt | ⟨hyes, _⟩)
      · exact Nat.not_lt.mpr hlong hlt
      · exact hannounces hyes

/-- An outcome other than the wait stays, whatever follows. -/
theorem decode_append {buf : Bytes} (h : (decode buf).1 ≠ .ok .none) (more : Bytes) :
    decode (buf ++ more) = ((decode buf).1, (decode buf).2 ++ more) := by
  by_cases hannounces : Announces buf
  · obtain ⟨hmore, hstated, hflags, htype, hid⟩ := hannounces.append more
    have hlong : ¬ buf.length < headerLen + statedLen buf := by
      intro hshort
      rw [hannounces.decode_eq, if_pos hshort] at h
      exact h rfl
    have hlong' : ¬ (buf ++ more).length < headerLen + statedLen buf := by
      rw [List.length_append]
      omega
    rw [hmore.decode_eq, hannounces.decode_eq, hstated, hflags, htype, hid, if_neg hlong,
      if_neg hlong', take_drop_append (Nat.not_lt.mp hlong),
      List.drop_append_of_le_length (Nat.not_lt.mp hlong)]
    cases MsgType.fromU8 (buf.getD 4 0) <;> rfl
  · rcases decode_of_not_announces hannounces with ⟨_, hwait⟩ | ⟨_, e, herror⟩
    · rw [hwait] at h
      exact absurd rfl h
    · have hthis := herror []
      rw [List.append_nil] at hthis
      rw [herror more, hthis]

/-- **Exact parsing.** On every buffer: a frame is returned exactly for its own bytes, the wait is
for what a valid header announces, anything but a frame leaves the buffer, and only the wait is
changed by more bytes. -/
theorem decode_exact (buf : Bytes) :
    (∀ frame rest, decode buf = (.ok (some frame), rest) ↔
      frame.WellFormed ∧ buf = frame.encode ++ rest) ∧
    ((decode buf).1 = .ok .none ↔ buf.length < headerLen ∨
      (Announces buf ∧ buf.length < headerLen + statedLen buf)) ∧
    ((∀ frame, (decode buf).1 ≠ .ok (some frame)) → (decode buf).2 = buf) ∧
    ((decode buf).1 ≠ .ok .none → ∀ more,
      decode (buf ++ more) = ((decode buf).1, (decode buf).2 ++ more)) := by
  refine ⟨?_, decode_waits_iff buf, decode_snd_of_ne, decode_append⟩
  intro frame rest
  constructor
  · exact of_decode_some
  · rintro ⟨hwf, rfl⟩
    exact decode_encode_append hwf rest

end Frame

end Ohmcp
