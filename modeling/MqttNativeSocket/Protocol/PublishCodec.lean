import MqttNativeSocket.Protocol.Framing

/-! # Encoding and decoding PUBLISH

`parsePublish` succeeds exactly on the bodies laid out as a length-prefixed
topic, a packet identifier when the QoS bits are nonzero, and the payload.
Reading back what `buildPublish` wrote gives the same message exactly when its
topic fits 16 bits, its QoS two bits and its body 28 bits.
-/

namespace MqttNativeSocket

/-- The QoS bits of the fixed header as `parsePublish` reads them. -/
def flagsQos (flags : UInt8) : ℤ := ((flags >>> 1) &&& 0x03).toNat

/-- The bytes of a PUBLISH body, in order. -/
def publishLayout (topic payload : Bytes) (qos : ℤ) (packetId : UInt16) : Bytes :=
  u16Bytes (UInt16.ofNat topic.length) ++
    (topic ++ ((if 0 < qos then u16Bytes packetId else []) ++ payload))

theorem length_publishLayout (topic payload : Bytes) (qos : ℤ) (packetId : UInt16) :
    (publishLayout topic payload qos packetId).length =
      2 + topic.length + (if 0 < qos then 2 else 0) + payload.length := by
  simp only [publishLayout, List.length_append, length_u16Bytes]
  split <;> simp <;> omega

theorem ofNat_toNat_length {v : UInt16} {n : ℕ} (h : n = v.toNat) : UInt16.ofNat n = v := by
  subst h; exact UInt16.ofNat_toNat

/-- The messages `parsePublish` returns, and the bodies it returns them for. -/
theorem parsePublish_eq_ok_iff (flags : UInt8) (body : Bytes) (info : PublishInfo) :
    parsePublish flags body = .ok info ↔
      body = publishLayout info.topic info.payload info.qos info.packetId ∧
        info.topic.length ≤ 65535 ∧ info.qos = flagsQos flags ∧
        info.retained = (flags &&& 0x01 != 0) ∧ info.dup = (flags &&& 0x08 != 0) ∧
        (info.qos ≤ 0 → info.packetId = 0) := by
  constructor
  · intro h
    simp only [parsePublish] at h
    split at h
    · cases h
    · next h2 =>
      split at h
      · cases h
      · next htopic =>
        have hlt := (u16At body 0 (by omega)).toNat_lt
        have hbody := drop_eq_u16Bytes body 0 (by omega)
        rw [List.drop_zero] at hbody
        have hcut := List.take_append_drop (u16At body 0 (by omega)).toNat (body.drop 2)
        have hlen : ((body.drop 2).take (u16At body 0 (by omega)).toNat).length =
            (u16At body 0 (by omega)).toNat :=
          List.length_take_of_le (by rw [List.length_drop]; omega)
        rw [List.drop_drop] at hcut
        split at h
        · next hqos =>
          split at h
          · cases h
          · next hid =>
            obtain rfl := Except.ok.inj h
            refine ⟨?_, by rw [hlen]; omega, rfl, rfl, rfl, fun hq => absurd hqos (not_lt.mpr hq)⟩
            simp only [publishLayout, hlen, ofNat_toNat_length rfl, if_pos hqos]
            rw [← drop_eq_u16Bytes body _ (by omega), hcut]
            exact hbody
        · next hqos =>
          obtain rfl := Except.ok.inj h
          refine ⟨?_, by rw [hlen]; omega, rfl, rfl, rfl, fun _ => rfl⟩
          simp only [publishLayout, hlen, ofNat_toNat_length rfl, if_neg hqos, List.nil_append]
          rw [hcut]
          exact hbody
  · rintro ⟨hbody, htopic, hq, hr, hd, hid⟩
    obtain ⟨topic, packetId, payload, qos, retained, dup⟩ := info
    simp only at hbody htopic hq hr hd hid
    subst hr hd
    have hl := hbody ▸ length_publishLayout topic payload qos packetId
    have h2 : ¬ body.length < 2 := by omega
    have hL : u16At body 0 (by omega) = UInt16.ofNat topic.length :=
      u16At_of_drop _ (by rw [hbody]; rfl)
    have hLn : (UInt16.ofNat topic.length).toNat = topic.length := by
      rw [UInt16.toNat_ofNat']; omega
    have hafter : body.drop 2 =
        topic ++ ((if 0 < qos then u16Bytes packetId else []) ++ payload) := by
      rw [hbody]; rfl
    have hpos : body.drop (2 + topic.length) =
        (if 0 < qos then u16Bytes packetId else []) ++ payload := by
      rw [← List.drop_drop, hafter, List.drop_left]
    have h3 : ¬ body.length < 2 + topic.length := by omega
    simp only [parsePublish, dif_neg h2, hL, hLn, gt_iff_lt, if_neg h3, hafter, List.take_left]
    rw [← flagsQos, ← hq]
    by_cases h0 : 0 < qos
    · rw [if_pos h0] at hl hpos
      have h4 : ¬ body.length < 2 + topic.length + 2 := by omega
      have hid' : u16At body (2 + topic.length) (by omega) = packetId := u16At_of_drop _ hpos
      rw [if_pos h0, dif_neg h4, hid', ← List.drop_drop, hpos]
      rfl
    · rw [if_neg h0, hid (not_lt.mp h0), hpos, if_neg h0]
      rfl

/-! ## The encoder -/

/-- The first byte of a PUBLISH packet. -/
def publishByte (qos : ℤ) (retained dup : Bool) : UInt8 :=
  let b0 : UInt8 := if dup then 0x30 ||| 0x08 else 0x30
  let b0 := b0 ||| (qosBits qos <<< 1)
  if retained then b0 ||| 0x01 else b0

theorem buildPublish_eq (topic payload : Bytes) (qos : ℤ) (retained dup : Bool)
    (packetId : UInt16) :
    buildPublish topic payload qos retained dup packetId =
      prependFixedHeader (publishLayout topic payload qos packetId)
        (publishByte qos retained dup) := by
  have hb : (if 0 < qos then appendU16 (appendMqttString [] topic) packetId
      else appendMqttString [] topic) ++ payload = publishLayout topic payload qos packetId := by
    simp only [appendMqttString_eq, appendU16_eq, publishLayout]
    split <;> simp
  rw [buildPublish, hb]
  rfl

theorem qosBits_cases (qos : ℤ) : ∃ k : Fin 4, qos % 4 = k.val ∧ qosBits qos = UInt8.ofNat k.val :=
  ⟨⟨(qos % 4).toNat, by omega⟩, by simp only; omega, rfl⟩

/-- The four fields of a PUBLISH first byte, read back from it. -/
theorem publishByte_fields (qos : ℤ) (retained dup : Bool) :
    PacketType.ofUInt8 (publishByte qos retained dup >>> 4) = .publish ∧
      flagsQos (publishByte qos retained dup &&& 0x0F) = qos % 4 ∧
      (publishByte qos retained dup &&& 0x0F &&& 0x01 != 0) = retained ∧
      (publishByte qos retained dup &&& 0x0F &&& 0x08 != 0) = dup := by
  obtain ⟨k, hq, hk⟩ := qosBits_cases qos
  rw [publishByte, hk, hq]
  clear hk hq
  revert k retained dup
  decide

/-- The message that a decoded PUBLISH should carry. -/
def publishInfo (topic payload : Bytes) (qos : ℤ) (retained dup : Bool) (packetId : UInt16) :
    PublishInfo :=
  ⟨topic, if 0 < qos then packetId else 0, payload, qos, retained, dup⟩

/-- The messages whose encoding can be decoded. -/
structure Encodable (topic payload : Bytes) (qos : ℤ) : Prop where
  topic_le : topic.length ≤ 65535
  qos_nonneg : 0 ≤ qos
  qos_le : qos ≤ 3
  body_le : 2 + topic.length + (if 0 < qos then 2 else 0) + payload.length ≤ 268435455

/-- Any segmentation of an encoded PUBLISH decodes to the message, just when it is encodable. -/
theorem publish_roundtrip_iff (topic payload : Bytes) (qos : ℤ) (retained dup : Bool)
    (packetId : UInt16) (rx : Transport) (more : Bytes) (tail : List RecvCall)
    (hf : rx.Feeds (buildPublish topic payload qos retained dup packetId ++ more) tail) :
    (∃ p rx', readPacket rx = some (.ok p, rx') ∧ p.type = .publish ∧
        parsePublish p.flags p.body =
          .ok (publishInfo topic payload qos retained dup packetId)) ↔
      Encodable topic payload qos := by
  rw [buildPublish_eq] at hf
  have hlen := length_publishLayout topic payload qos packetId
  obtain ⟨htype, hmod, hretained, hdup⟩ := publishByte_fields qos retained dup
  generalize hbody : publishLayout topic payload qos packetId = body at hf hlen
  constructor
  · rintro ⟨p, rx', hread, -, hparse⟩
    obtain ⟨hb, htopic, hq, -⟩ := (parsePublish_eq_ok_iff _ _ _).mp hparse
    have hpl := congrArg List.length hb
    rw [length_publishLayout] at hpl
    simp only [publishInfo] at hpl htopic hq
    rcases Nat.lt_or_ge (body.length % 2 ^ 32) (2 ^ 28) with hlt | hge
    · -- the packet read has the body up to the length that survived the cast
      obtain ⟨recvs, hr, -⟩ := readPacket_packet hf (frame_framed body more _ hlt)
      rw [hread] at hr
      simp only [Option.some.injEq, Prod.mk.injEq, Except.ok.injEq] at hr
      obtain ⟨rfl, -⟩ := hr
      simp only [List.length_take_of_le (Nat.mod_le _ _)] at hpl
      rw [hmod] at hq
      exact ⟨htopic, by omega, by omega, hpl ▸ Nat.le_of_lt_succ hlt⟩
    · obtain ⟨rest', hfr⟩ := frame_framed_overlong body more
        (publishByte qos retained dup) hge
      obtain ⟨recvs, hr, -⟩ := readPacket_malformed hf hfr
      rw [hread] at hr
      simp at hr
  · intro h
    have hb : body.length < 2 ^ 28 := by
      have := h.body_le
      omega
    obtain ⟨recvs, hr, -⟩ := readPacket_packet hf (frame_prependFixedHeader body more _ hb)
    refine ⟨_, _, hr, htype, (parsePublish_eq_ok_iff _ _ _).mpr ?_⟩
    refine ⟨?_, h.topic_le, ?_, hretained.symm, hdup.symm, fun hq => if_neg (not_lt.mpr hq)⟩
    · rw [← hbody]
      simp only [publishInfo, publishLayout]
      split <;> rfl
    · have := h.qos_nonneg
      have := h.qos_le
      rw [hmod]
      simp only [publishInfo]
      omega

/-- A message at QoS 1, which arrives in three segments with a timeout between them. -/
theorem publish_roundtrip_acknowledged :
    (∃ p rx', readPacket { recvs := [⟨.data 0x32 [9, 0], false⟩, ⟨.again, false⟩,
          ⟨.data 3 [0x61, 0x2f, 0x62, 0], false⟩, ⟨.data 9 [1, 2], false⟩] } = some (.ok p, rx') ∧
        p.type = .publish ∧ parsePublish p.flags p.body =
          .ok (publishInfo (ascii "a/b") [1, 2] 1 false false 9)) ↔
      Encodable (ascii "a/b") [1, 2] 1 := by
  have hv : varLen (UInt32.ofNat (publishLayout (ascii "a/b") [1, 2] 1 9).length) = [9] := by
    rw [varLen, appendVarLen, if_neg (by decide)]; decide
  have hb : buildPublish (ascii "a/b") [1, 2] 1 false false 9 ++ [] =
      [0x32, 9, 0, 3, 0x61, 0x2f, 0x62, 0, 9, 1, 2] := by
    rw [buildPublish_eq, prependFixedHeader_eq, hv]; decide
  exact publish_roundtrip_iff (ascii "a/b") [1, 2] 1 false false 9 _ [] []
    ⟨rfl, _, (List.append_nil _).symm, by simp [RecvCall.Quiet], by rw [hb]; rfl⟩

end MqttNativeSocket
