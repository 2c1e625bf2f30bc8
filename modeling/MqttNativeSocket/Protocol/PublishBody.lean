import MqttNativeSocket.Protocol.PublishCodec

/-! # Decoding a PUBLISH loses nothing

With every access to the body checked, `parsePublish` never meets one outside of it. The
bodies it takes are those long enough for their topic and identifier, and building a
packet from what it returns gives the first byte and the body back.
-/

namespace MqttNativeSocket

/-! ## Checked accesses -/

/-- `(body[pos] << 8) | body[pos + 1]`; no value where one of them is outside of the body. -/
def u16At? (body : Bytes) (pos : ℕ) : Option UInt16 := do
  let hi ← body[pos]?
  let lo ← body[pos + 1]?
  return (hi.toUInt16 <<< 8) ||| lo.toUInt16

/-- `assign(first, last)` from two positions of the body. -/
def assign? (body : Bytes) (first last : ℕ) : Option Bytes :=
  if first ≤ last ∧ last ≤ body.length then some ((body.drop first).take (last - first)) else none

/-- `parsePublish` with the accesses that it makes, in their order. -/
def parsePublishChecked (flags : UInt8) (body : Bytes) :
    Option (Except MqttException PublishInfo) :=
  let dup := flags &&& 0x08 != 0
  let qos : ℤ := ((flags >>> 1) &&& 0x03).toNat
  let retained := flags &&& 0x01 != 0
  if body.length < 2 then return throw (deserializationFailed "PUBLISH body too short")
  else do
    let topicLen ← u16At? body 0
    if 2 + topicLen.toNat > body.length then
      return throw (deserializationFailed "PUBLISH topic overflow")
    else do
      let topic ← assign? body 2 (2 + topicLen.toNat)
      let pos := 2 + topicLen.toNat
      if 0 < qos then
        if pos + 2 > body.length then
          return throw (deserializationFailed "PUBLISH missing packet ID")
        else do
          let packetId ← u16At? body pos
          let payload ← assign? body (pos + 2) body.length
          return return ⟨topic, packetId, payload, qos, retained, dup⟩
      else do
        let payload ← assign? body pos body.length
        return return ⟨topic, 0, payload, qos, retained, dup⟩

variable {flags : UInt8} {body : Bytes}

theorem u16At?_eq {pos : ℕ} (h : pos + 1 < body.length) :
    u16At? body pos = some (u16At body pos h) := by
  rw [u16At?, List.getElem?_eq_getElem (by omega), List.getElem?_eq_getElem h]
  rfl

theorem assign?_eq {first last : ℕ} (h : first ≤ last) (hl : last ≤ body.length) :
    assign? body first last = some ((body.drop first).take (last - first)) :=
  if_pos ⟨h, hl⟩

theorem assign?_to_end {first : ℕ} (h : first ≤ body.length) :
    assign? body first body.length = some (body.drop first) := by
  rw [assign?_eq h le_rfl, ← List.length_drop, List.take_length]

theorem parsePublishChecked_eq :
    parsePublishChecked flags body = some (parsePublish flags body) := by
  unfold parsePublishChecked parsePublish
  by_cases h2 : body.length < 2
  · simp only [if_pos h2, dif_pos h2]
    rfl
  · have h1 : 0 + 1 < body.length := by omega
    simp only [if_neg h2, dif_neg h2, u16At?_eq h1, Option.bind_eq_bind, Option.bind_some]
    by_cases htopic : 2 + (u16At body 0 h1).toNat > body.length
    · simp only [if_pos htopic]
      rfl
    · have htopic' : 2 + (u16At body 0 h1).toNat ≤ body.length := by omega
      simp only [if_neg htopic, assign?_eq (Nat.le_add_right ..) htopic', Option.bind_some,
        Nat.add_sub_cancel_left]
      by_cases hqos : (0 : ℤ) < ((flags >>> 1) &&& 0x03).toNat
      · simp only [if_pos hqos]
        by_cases hid : 2 + (u16At body 0 h1).toNat + 2 > body.length
        · simp only [if_pos hid, dif_pos hid]
          rfl
        · have hid' : 2 + (u16At body 0 h1).toNat + 1 < body.length := by omega
          simp only [if_neg hid, dif_neg hid, u16At?_eq hid',
            assign?_to_end (Nat.le_of_not_lt hid), Option.bind_some]
          rfl
      · simp only [if_neg hqos, assign?_to_end htopic', Option.bind_some]
        rfl

/-! ## Which bodies are accepted -/

/-- The length that the topic claims, as its first two bytes say it. -/
def claimedLength : Bytes → ℕ
  | hi :: lo :: _ => hi.toNat * 256 + lo.toNat
  | _ => 0

/-- Long enough for the topic it claims, and for an identifier if the QoS bits ask for one. -/
def LongEnough (flags : UInt8) (body : Bytes) : Prop :=
  2 ≤ body.length ∧
    2 + claimedLength body + (if flagsQos flags = 0 then 0 else 2) ≤ body.length

theorem toNat_u16At_zero (h : 0 + 1 < body.length) :
    (u16At body 0 h).toNat = claimedLength body := by
  obtain _ | ⟨hi, _ | ⟨lo, body⟩⟩ := body
  · simp at h
  · simp at h
  · exact toNat_join hi lo

theorem flagsQos_pos_iff : 0 < flagsQos flags ↔ flagsQos flags ≠ 0 := by
  rw [flagsQos]
  omega

theorem parsePublish_isOk_iff :
    (parsePublish flags body).isOk = true ↔ LongEnough flags body := by
  have herror (message : String) : (throw (deserializationFailed message) :
      Except MqttException PublishInfo).isOk = false := rfl
  have hok (info : PublishInfo) : (pure info : Except MqttException PublishInfo).isOk = true := rfl
  simp only [parsePublish, LongEnough]
  rw [← flagsQos]
  split
  · next h2 => simp [herror, h2]
  · next h2 =>
    simp only [toNat_u16At_zero]
    split
    · next htopic =>
      simp only [herror, Bool.false_eq_true, false_iff]
      omega
    · next htopic =>
      split
      · next hqos =>
        simp only [if_neg (flagsQos_pos_iff.mp hqos)]
        split
        · next hid =>
          simp only [herror, Bool.false_eq_true, false_iff]
          omega
        · next hid =>
          simp only [hok, true_iff]
          omega
      · next hqos =>
        simp only [if_pos (not_not.mp (mt flagsQos_pos_iff.mpr hqos)), hok, true_iff]
        omega

/-! ## Building it again -/

theorem publishByte_flagsQos (h : flags.toNat < 16) :
    publishByte (flagsQos flags) (flags &&& 0x01 != 0) (flags &&& 0x08 != 0) = 0x30 ||| flags := by
  have hall : ∀ n : Fin 16, publishByte (flagsQos (UInt8.ofNat n))
      (UInt8.ofNat n &&& 0x01 != 0) (UInt8.ofNat n &&& 0x08 != 0) = 0x30 ||| UInt8.ofNat n := by
    decide
  simpa using hall ⟨flags.toNat, h⟩

theorem or_right_inj {flags flags' : UInt8} (h : flags.toNat < 16) (h' : flags'.toNat < 16)
    (heq : 0x30 ||| flags = 0x30 ||| flags') : flags = flags' := by
  have hall : ∀ n m : Fin 16, 0x30 ||| UInt8.ofNat n = 0x30 ||| UInt8.ofNat m → n = m := by
    decide
  have := hall ⟨flags.toNat, h⟩ ⟨flags'.toNat, h'⟩ (by simpa using heq)
  exact UInt8.toNat_inj.mp (Fin.mk.inj this)

theorem PublishInfo.build_eq {info : PublishInfo} (hflags : flags.toNat < 16)
    (h : parsePublish flags body = .ok info) :
    buildPublish info.topic info.payload info.qos info.retained info.dup info.packetId =
      prependFixedHeader body (0x30 ||| flags) := by
  obtain ⟨hbody, -, hqos, hretained, hdup, -⟩ := (parsePublish_eq_ok_iff flags body info).mp h
  rw [buildPublish_eq, ← hbody, hqos, hretained, hdup, publishByte_flagsQos hflags]

theorem parsePublish_injective {flags' : UInt8} {body' : Bytes} {info : PublishInfo}
    (hflags : flags.toNat < 16) (hflags' : flags'.toNat < 16)
    (h : parsePublish flags body = .ok info) (h' : parsePublish flags' body' = .ok info) :
    flags = flags' ∧ body = body' := by
  obtain ⟨hbody, -, hqos, hretained, hdup, -⟩ := (parsePublish_eq_ok_iff flags body info).mp h
  obtain ⟨hbody', -, hqos', hretained', hdup', -⟩ :=
    (parsePublish_eq_ok_iff flags' body' info).mp h'
  have hbyte := publishByte_flagsQos hflags'
  rw [← hqos', ← hretained', ← hdup', hqos, hretained, hdup, publishByte_flagsQos hflags] at hbyte
  exact ⟨or_right_inj hflags hflags' hbyte, hbody.trans hbody'.symm⟩

/-- The packet that the reader cuts out of the rebuilt one. -/
theorem frame_rebuilt (hflags : flags.toNat < 16) (hbody : body.length ≤ 268435455) :
    frame (prependFixedHeader body (0x30 ||| flags)) = .packet ⟨.publish, flags, body⟩ [] := by
  have hall : ∀ n : Fin 16, PacketType.ofUInt8 ((0x30 ||| UInt8.ofNat n) >>> 4) = .publish ∧
      (0x30 ||| UInt8.ofNat n) &&& 0x0F = UInt8.ofNat n := by
    decide
  obtain ⟨htype, hlow⟩ : PacketType.ofUInt8 ((0x30 ||| flags) >>> 4) = .publish ∧
      (0x30 ||| flags) &&& 0x0F = flags := by
    simpa using hall ⟨flags.toNat, hflags⟩
  have hframe := frame_prependFixedHeader body [] (0x30 ||| flags) (by omega)
  rwa [List.append_nil, htype, hlow] at hframe

/--
For any four flags and any body: no access is out of range, the body is accepted exactly if it is
long enough, and what is returned can be built again into the same first byte and body; so no other
flags or body give the same message.
-/
theorem parsePublish_lossless (flags : UInt8) (body : Bytes) (hflags : flags.toNat < 16) :
    parsePublishChecked flags body = some (parsePublish flags body) ∧
    ((parsePublish flags body).isOk = true ↔ LongEnough flags body) ∧
    ∀ info, parsePublish flags body = .ok info →
      (buildPublish info.topic info.payload info.qos info.retained info.dup info.packetId).head? =
        some (0x30 ||| flags) ∧
      (body.length ≤ 268435455 →
        frame (buildPublish info.topic info.payload info.qos info.retained info.dup
          info.packetId) = .packet ⟨.publish, flags, body⟩ []) ∧
      ∀ flags' body', flags'.toNat < 16 → parsePublish flags' body' = .ok info →
        flags = flags' ∧ body = body' := by
  refine ⟨parsePublishChecked_eq, parsePublish_isOk_iff, fun info h => ?_⟩
  rw [PublishInfo.build_eq hflags h]
  refine ⟨?_, frame_rebuilt hflags, fun flags' body' hflags' =>
    parsePublish_injective hflags hflags' h⟩
  rw [prependFixedHeader_eq]
  rfl

/-- A retained duplicate at QoS 1. -/
theorem parsePublish_lossless_retained :
    parsePublishChecked 0x0B [0, 1, 0x61, 0, 7, 0x70] =
      some (parsePublish 0x0B [0, 1, 0x61, 0, 7, 0x70]) ∧
    ((parsePublish 0x0B [0, 1, 0x61, 0, 7, 0x70]).isOk = true ↔
      LongEnough 0x0B [0, 1, 0x61, 0, 7, 0x70]) ∧
    ∀ info, parsePublish 0x0B [0, 1, 0x61, 0, 7, 0x70] = .ok info →
      (buildPublish info.topic info.payload info.qos info.retained info.dup info.packetId).head? =
        some (0x30 ||| 0x0B) ∧
      ([0, 1, 0x61, 0, 7, 0x70].length ≤ 268435455 →
        frame (buildPublish info.topic info.payload info.qos info.retained info.dup
          info.packetId) = .packet ⟨.publish, 0x0B, [0, 1, 0x61, 0, 7, 0x70]⟩ []) ∧
      ∀ flags' body', flags'.toNat < 16 → parsePublish flags' body' = .ok info →
        0x0B = flags' ∧ [0, 1, 0x61, 0, 7, 0x70] = body' :=
  parsePublish_lossless 0x0B [0, 1, 0x61, 0, 7, 0x70] (by decide)

end MqttNativeSocket
