import MqttNativeSocket.Protocol.ConnectCodec
import MqttNativeSocket.Protocol.SubscribeCodec

/-! # Self-consistent packets

A packet written field by field, so that it can be asked whether each length
says how long its string is and whether the flags of the packet agree with the
fields that follow. The bytes alone cannot tell: a string that is too long reads
as a shorter one followed by further fields. Each encoder writes such a packet,
and it is self-consistent exactly when the encoder's arguments fit the format.
-/

namespace MqttNativeSocket

/-- One field of a packet body, as the encoder means it. -/
inductive Field where
  | byte (b : UInt8)
  | number (v : UInt16)
  | packetId (v : UInt16)
  /-- A string behind a two-byte length. -/
  | text (len : UInt16) (s : Bytes)
  | payload (s : Bytes)
  | connectFlags (b : UInt8)
  | filterQos (b : UInt8)
  deriving DecidableEq, Repr

def Field.bytes : Field → Bytes
  | .byte b => [b]
  | .number v => u16Bytes v
  | .packetId v => u16Bytes v
  | .text len s => u16Bytes len ++ s
  | .payload s => s
  | .connectFlags b => [b]
  | .filterQos b => [b]

structure Image where
  firstByte : UInt8
  remaining : Bytes
  fields : List Field
  deriving DecidableEq, Repr

namespace Image

def body (m : Image) : Bytes := m.fields.flatMap Field.bytes

def bytes (m : Image) : Bytes := m.firstByte :: (m.remaining ++ m.body)

def type (m : Image) : PacketType := PacketType.ofUInt8 (m.firstByte >>> 4)

/-- Two QoS bits of a byte, `shift` bits from its end. -/
def qosAt (shift b : UInt8) : ℕ := ((b >>> shift) &&& 0x03).toNat

/-- No length, flag or QoS of the packet contradicts the rest of it. -/
structure SelfConsistent (m : Image) : Prop where
  remaining_le : m.remaining.length ≤ 4
  remaining_eq : VarLen.scan 128 UInt8.toNat 4 m.remaining = .done m.body.length []
  length_eq : ∀ len s, Field.text len s ∈ m.fields → len.toNat = s.length
  id_iff : m.type = .publish →
    ((∃ v, Field.packetId v ∈ m.fields) ↔ qosAt 1 m.firstByte ≠ 0)
  publish_qos : m.type = .publish → qosAt 1 m.firstByte ≤ 2
  filter_qos : ∀ b, Field.filterQos b ∈ m.fields → b.toNat ≤ 2
  will_qos : ∀ b, Field.connectFlags b ∈ m.fields → qosAt 3 b ≤ 2
  password : ∀ b, Field.connectFlags b ∈ m.fields → b &&& 0x40 ≠ 0 → b &&& 0x80 ≠ 0

/-- The packet whose remaining length is written by the fixed-header encoder. -/
def framed (firstByte : UInt8) (fields : List Field) : Image where
  firstByte := firstByte
  remaining := varLen (UInt32.ofNat (fields.flatMap Field.bytes).length)
  fields := fields

theorem bytes_framed (firstByte : UInt8) (fields : List Field) :
    (framed firstByte fields).bytes =
      prependFixedHeader (fields.flatMap Field.bytes) firstByte :=
  (prependFixedHeader_eq _ _).symm

/-- The remaining length is right just below `2 ^ 28`. -/
theorem remaining_framed_iff (firstByte : UInt8) (fields : List Field) :
    ((framed firstByte fields).remaining.length ≤ 4 ∧
        VarLen.scan 128 UInt8.toNat 4 (framed firstByte fields).remaining =
          .done (framed firstByte fields).body.length []) ↔
      (fields.flatMap Field.bytes).length < 2 ^ 28 := by
  have hbody : (framed firstByte fields).body = fields.flatMap Field.bytes := rfl
  have hrem : (framed firstByte fields).remaining =
      varLen (UInt32.ofNat (fields.flatMap Field.bytes).length) := rfl
  rw [hbody, hrem, length_varLen_le_four_iff, UInt32.toNat_ofNat']
  generalize hn : (fields.flatMap Field.bytes).length = n
  have hscan : n % 2 ^ 32 < 2 ^ 28 →
      VarLen.scan 128 UInt8.toNat 4 (varLen (UInt32.ofNat n)) = .done (n % 2 ^ 32) [] := by
    intro hlt
    have hl := (length_varLen_le_four_iff (UInt32.ofNat n)).mpr (by rwa [UInt32.toNat_ofNat'])
    simpa using VarLen.scan_groups_append (by norm_num) (map_varLen_toNat n) [] hl
  constructor
  · rintro ⟨hlt, heq⟩
    rw [hscan hlt, VarLen.Scan.done.injEq] at heq
    omega
  · intro hlt
    have hm : n % 2 ^ 32 = n := Nat.mod_eq_of_lt (by omega)
    exact ⟨by omega, by rw [hscan (by omega), hm]⟩

/-- What self-consistency asks of the fields of such a packet. -/
theorem framed_consistent_iff (firstByte : UInt8) (fields : List Field) :
    (framed firstByte fields).SelfConsistent ↔
      (fields.flatMap Field.bytes).length < 2 ^ 28 ∧
        (∀ len s, Field.text len s ∈ fields → len.toNat = s.length) ∧
        (PacketType.ofUInt8 (firstByte >>> 4) = .publish →
          ((∃ v, Field.packetId v ∈ fields) ↔ qosAt 1 firstByte ≠ 0) ∧ qosAt 1 firstByte ≤ 2) ∧
        (∀ b, Field.filterQos b ∈ fields → b.toNat ≤ 2) ∧
        ∀ b, Field.connectFlags b ∈ fields →
          qosAt 3 b ≤ 2 ∧ (b &&& 0x40 ≠ 0 → b &&& 0x80 ≠ 0) := by
  constructor
  · intro h
    exact ⟨(remaining_framed_iff _ _).mp ⟨h.remaining_le, h.remaining_eq⟩, h.length_eq,
      fun ht => ⟨h.id_iff ht, h.publish_qos ht⟩, h.filter_qos,
      fun b hb => ⟨h.will_qos b hb, h.password b hb⟩⟩
  · rintro ⟨hlt, htext, hpub, hfilter, hconn⟩
    obtain ⟨hle, heq⟩ := (remaining_framed_iff firstByte fields).mpr hlt
    exact ⟨hle, heq, htext, fun ht => (hpub ht).1, fun ht => (hpub ht).2, hfilter,
      fun b hb => (hconn b hb).1, fun b hb => (hconn b hb).2⟩

end Image

open Image

/-! ## The packets of the encoders -/

/-- A string with its length cast to sixteen bits. -/
def Field.ofBytes (s : Bytes) : Field := .text (UInt16.ofNat s.length) s

theorem toNat_ofNat_length_iff (s : Bytes) :
    (UInt16.ofNat s.length).toNat = s.length ↔ s.length ≤ 65535 := by
  rw [UInt16.toNat_ofNat']
  omega

def publishFields (topic payload : Bytes) (qos : ℤ) (packetId : UInt16) : List Field :=
  [Field.ofBytes topic] ++ (if 0 < qos then [.packetId packetId] else []) ++ [.payload payload]

def publishImage (topic payload : Bytes) (qos : ℤ) (retained dup : Bool) (packetId : UInt16) :
    Image :=
  framed (publishByte qos retained dup) (publishFields topic payload qos packetId)

def subscribeImage (packetId : UInt16) (topic : Bytes) (qos : ℤ) : Image :=
  framed 0x82 [.packetId packetId, Field.ofBytes topic, .filterQos (qosBits qos)]

def unsubscribeImage (packetId : UInt16) (topic : Bytes) : Image :=
  framed 0xA2 [.packetId packetId, Field.ofBytes topic]

def connectFields (p : ConnectParams) : List Field :=
  [Field.ofBytes (ascii "MQTT"), .byte 0x04, .connectFlags p.flags, .number p.keepaliveSeconds,
      Field.ofBytes p.clientId] ++
    p.will.elim [] (fun w => [Field.ofBytes w.topic, Field.ofBytes w.payload]) ++
    p.username.elim [] (fun u => [Field.ofBytes u]) ++
    p.password.elim [] fun s => [Field.ofBytes s]

def connectImage (p : ConnectParams) : Image := framed 0x10 (connectFields p)

theorem publishImage_bytes (topic payload : Bytes) (qos : ℤ) (retained dup : Bool)
    (packetId : UInt16) :
    (publishImage topic payload qos retained dup packetId).bytes =
      buildPublish topic payload qos retained dup packetId := by
  rw [publishImage, bytes_framed, buildPublish_eq, publishLayout, publishFields]
  congr 1
  split <;> simp [Field.ofBytes, Field.bytes]

theorem subscribeImage_bytes (packetId : UInt16) (topic : Bytes) (qos : ℤ) :
    (subscribeImage packetId topic qos).bytes = buildSubscribe packetId [(topic, qos)] := by
  rw [subscribeImage, bytes_framed, buildSubscribe_eq]
  simp [subscribeLayout, subscribeEntry, Field.ofBytes, Field.bytes, stringCodec, u16Codec]

theorem unsubscribeImage_bytes (packetId : UInt16) (topic : Bytes) :
    (unsubscribeImage packetId topic).bytes = buildUnsubscribe packetId [topic] := by
  rw [unsubscribeImage, bytes_framed, buildUnsubscribe_eq]
  simp [unsubscribeLayout, Field.ofBytes, Field.bytes, stringCodec, u16Codec]

theorem connectFields_bytes (p : ConnectParams) :
    (connectFields p).flatMap Field.bytes = connectLayout p := by
  obtain ⟨clientId, cleanSession, keepalive, username, password, will⟩ := p
  cases will <;> cases username <;> cases password <;>
    simp [connectFields, connectLayout, Field.ofBytes, Field.bytes, stringCodec,
      byteCodec, u16Codec, willCodec, PrefixCodec.optional, PrefixCodec.seq]

theorem connectImage_bytes (p : ConnectParams) : (connectImage p).bytes = buildConnect p := by
  rw [connectImage, bytes_framed, connectFields_bytes, buildConnect_eq]

/-! ## When they are self-consistent -/

/-- The QoS of a PUBLISH agrees with the test that decides about the packet identifier. -/
def PublishQosFits (qos : ℤ) : Prop := (0 < qos ↔ qos % 4 ≠ 0) ∧ qos % 4 ≤ 2

theorem qosAt_publishByte (qos : ℤ) (retained dup : Bool) :
    (qosAt 1 (publishByte qos retained dup) : ℤ) = qos % 4 := by
  obtain ⟨k, hq, hk⟩ := qosBits_cases qos
  rw [publishByte, hk, hq]
  clear hk hq
  revert k retained dup
  decide

theorem toNat_qosBits (qos : ℤ) : ((qosBits qos).toNat : ℤ) = qos % 4 := by
  rw [qosBits, UInt8.toNat_ofNat']
  omega

theorem publishImage_consistent_iff (topic payload : Bytes) (qos : ℤ) (retained dup : Bool)
    (packetId : UInt16) :
    (publishImage topic payload qos retained dup packetId).SelfConsistent ↔
      topic.length ≤ 65535 ∧ PublishQosFits qos ∧
        2 + topic.length + (if 0 < qos then 2 else 0) + payload.length ≤ 268435455 := by
  have htype := (publishByte_fields qos retained dup).1
  have hqos := qosAt_publishByte qos retained dup
  have hlen : ((publishFields topic payload qos packetId).flatMap Field.bytes).length =
      2 + topic.length + (if 0 < qos then 2 else 0) + payload.length := by
    unfold publishFields
    split <;> simp [Field.ofBytes, Field.bytes] <;> omega
  have htext : ∀ len s, Field.text len s ∈ publishFields topic payload qos packetId ↔
      len = UInt16.ofNat topic.length ∧ s = topic := by
    intro len s
    unfold publishFields
    split <;> simp [Field.ofBytes]
  have hid : (∃ v, Field.packetId v ∈ publishFields topic payload qos packetId) ↔ 0 < qos := by
    unfold publishFields
    split <;> simp_all [Field.ofBytes]
  have hnone : ∀ b, Field.filterQos b ∉ publishFields topic payload qos packetId ∧
      Field.connectFlags b ∉ publishFields topic payload qos packetId := by
    intro b
    unfold publishFields
    split <;> simp [Field.ofBytes]
  rw [publishImage, framed_consistent_iff, hlen, hid, PublishQosFits]
  simp only [htext, htype, (hnone _).1, (hnone _).2, false_implies, implies_true, true_implies,
    and_true, and_imp, forall_eq_apply_imp_iff, forall_eq, toNat_ofNat_length_iff]
  have hcast : qosAt 1 (publishByte qos retained dup) ≠ 0 ↔ qos % 4 ≠ 0 := by omega
  have hle : qosAt 1 (publishByte qos retained dup) ≤ 2 ↔ qos % 4 ≤ 2 := by omega
  rw [hcast, hle]
  constructor
  · rintro ⟨hlt, ht, hq⟩
    exact ⟨ht, hq, by omega⟩
  · rintro ⟨ht, hq, hlt⟩
    exact ⟨by omega, ht, hq⟩

theorem subscribeImage_consistent_iff (packetId : UInt16) (topic : Bytes) (qos : ℤ) :
    (subscribeImage packetId topic qos).SelfConsistent ↔ topic.length ≤ 65535 ∧ qos % 4 ≤ 2 := by
  have hqos := toNat_qosBits qos
  have htype : PacketType.ofUInt8 ((0x82 : UInt8) >>> 4) ≠ .publish := by decide
  rw [subscribeImage, framed_consistent_iff]
  simp only [Field.ofBytes, Field.bytes, htype, List.mem_cons, List.not_mem_nil, or_false,
    reduceCtorEq, false_or, false_implies, implies_true, true_and, and_true, Field.text.injEq,
    Field.filterQos.injEq, and_imp, forall_eq_apply_imp_iff, forall_eq, toNat_ofNat_length_iff,
    List.flatMap_cons, List.flatMap_nil, List.length_append, length_u16Bytes, List.length_nil,
    List.length_singleton]
  omega

theorem unsubscribeImage_consistent_iff (packetId : UInt16) (topic : Bytes) :
    (unsubscribeImage packetId topic).SelfConsistent ↔ topic.length ≤ 65535 := by
  have htype : PacketType.ofUInt8 ((0xA2 : UInt8) >>> 4) ≠ .publish := by decide
  rw [unsubscribeImage, framed_consistent_iff]
  simp only [Field.ofBytes, Field.bytes, htype, List.mem_cons, List.not_mem_nil, or_false,
    reduceCtorEq, false_or, false_implies, implies_true, and_true, Field.text.injEq, and_imp,
    forall_eq_apply_imp_iff, forall_eq, toNat_ofNat_length_iff, List.flatMap_cons,
    List.flatMap_nil, List.length_append, length_u16Bytes, List.length_nil]
  omega

/-- What a CONNECT asks of its parameters. -/
structure ConnectParams.Consistent (p : ConnectParams) : Prop extends p.LengthsFit where
  qos_le : ∀ w ∈ p.will, w.qos % 4 ≤ 2
  named : p.password.isSome → p.username.isSome

theorem text_mem_connectFields {p : ConnectParams} {len : UInt16} {s : Bytes} :
    Field.text len s ∈ connectFields p ↔ len = UInt16.ofNat s.length ∧
      (s = ascii "MQTT" ∨ s = p.clientId ∨ (∃ w ∈ p.will, s = w.topic ∨ s = w.payload) ∨
        s ∈ p.username ∨ s ∈ p.password) := by
  obtain ⟨clientId, cleanSession, keepalive, username, password, will⟩ := p
  cases will <;> cases username <;> cases password <;>
    simp [connectFields, Field.ofBytes] <;> grind

/-- The QoS bits of the flag byte, also when there is no will. -/
theorem ConnectParams.qosAt_flags_le_iff (p : ConnectParams) :
    qosAt 3 p.flags ≤ 2 ↔ ∀ w ∈ p.will, w.qos % 4 ≤ 2 := by
  obtain ⟨-, -, -, -, hbits⟩ := p.flags_bits
  cases hw : p.will with
  | none =>
    have hzero : ∀ clean user pass : Bool, qosAt 3 (connectFlags clean none user pass) ≤ 2 := by
      decide
    rw [ConnectParams.flags, hw]
    simpa using hzero p.cleanSession p.username.isSome p.password.isSome
  | some w =>
    have hq : (qosAt 3 p.flags : ℤ) = w.qos % 4 := (hbits w hw).1
    simp only [Option.mem_some_iff, forall_eq']
    omega

theorem connectImage_consistent_iff (p : ConnectParams) :
    (connectImage p).SelfConsistent ↔ p.Consistent := by
  have htype : PacketType.ofUInt8 ((0x10 : UInt8) >>> 4) ≠ .publish := by decide
  have hname : (ascii "MQTT").length ≤ 65535 := by decide
  have hflags : ∀ b, Field.connectFlags b ∈ connectFields p ↔ b = p.flags := by
    obtain ⟨clientId, cleanSession, keepalive, username, password, will⟩ := p
    cases will <;> cases username <;> cases password <;> simp [connectFields, Field.ofBytes]
  have hfilter : ∀ b, Field.filterQos b ∉ connectFields p := by
    obtain ⟨clientId, cleanSession, keepalive, username, password, will⟩ := p
    cases will <;> cases username <;> cases password <;> simp [connectFields, Field.ofBytes]
  obtain ⟨-, -, huser, hpass, -⟩ := p.flags_bits
  have hnamed : (p.flags &&& 0x40 ≠ 0 → p.flags &&& 0x80 ≠ 0) ↔
      (p.password.isSome → p.username.isSome) := by
    rw [← huser, ← hpass]
    simp
  have htext : (∀ len s, Field.text len s ∈ connectFields p → len.toNat = s.length) ↔
      p.LengthsFit := by
    constructor
    · intro h
      have hle : ∀ s, Field.text (UInt16.ofNat s.length) s ∈ connectFields p →
          s.length ≤ 65535 := fun s hs => (toNat_ofNat_length_iff s).mp (h _ s hs)
      simp only [text_mem_connectFields, true_and] at hle
      exact ⟨hle _ (.inr (.inl rfl)), fun w hw => hle _ (.inr (.inr (.inl ⟨w, hw, .inl rfl⟩))),
        fun w hw => hle _ (.inr (.inr (.inl ⟨w, hw, .inr rfl⟩))),
        fun u hu => hle _ (.inr (.inr (.inr (.inl hu)))),
        fun s hs => hle _ (.inr (.inr (.inr (.inr hs))))⟩
    · intro h len s hmem
      obtain ⟨rfl, hs⟩ := text_mem_connectFields.mp hmem
      clear hmem
      refine (toNat_ofNat_length_iff s).mpr ?_
      rcases hs with rfl | rfl | ⟨w, hw, rfl | rfl⟩ | hu | hp
      · exact hname
      · exact h.clientId_le
      · exact h.topic_le w hw
      · exact h.payload_le w hw
      · exact h.username_le s hu
      · exact h.password_le s hp
  rw [connectImage, framed_consistent_iff, htext, connectFields_bytes]
  simp only [htype, hflags, hfilter, false_implies, implies_true, true_and, forall_eq, hnamed,
    p.qosAt_flags_le_iff]
  constructor
  · rintro ⟨-, hl, hq, hn⟩
    exact ⟨hl, hq, hn⟩
  · rintro ⟨hl, hq, hn⟩
    exact ⟨length_connectLayout_lt hl, hl, hq, hn⟩

end MqttNativeSocket
