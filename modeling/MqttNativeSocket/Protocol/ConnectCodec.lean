import MqttNativeSocket.Protocol.Fields
import MqttNativeSocket.Protocol.PublishCodec

/-! # Encoding and decoding CONNECT

The decoder of an MQTT 3.1.1 server reads the optional fields that the flag byte
announces and accepts no byte after them. It gives back the parameters that
`buildConnect` was called with exactly when every string fits its 16-bit length
and the QoS of the will fits its two bits.
-/

namespace MqttNativeSocket

/-- The topic and the payload of a will. -/
def willCodec : PrefixCodec UInt8 (Bytes × Bytes) := stringCodec.seq stringCodec

/-- The will that a topic, a payload and the flag byte stand for. -/
def willOf (flags : UInt8) (w : Bytes × Bytes) : WillParams where
  topic := w.1
  payload := w.2
  qos := ((flags >>> 3) &&& 0x03).toNat
  retained := flags &&& 0x20 != 0

/-- The fields after the fixed header. -/
def decodeConnectBody (body : Bytes) : Option ConnectParams := do
  let (name, body) ← stringCodec.decode body
  guard (name = ascii "MQTT")
  let (level, body) ← byteCodec.decode body
  guard (level = 4)
  let (flags, body) ← byteCodec.decode body
  let (keepaliveSeconds, body) ← u16Codec.decode body
  let (clientId, body) ← stringCodec.decode body
  let (will, body) ← (willCodec.optional (flags &&& 0x04 != 0)).decode body
  let (username, body) ← (stringCodec.optional (flags &&& 0x80 != 0)).decode body
  let (password, body) ← (stringCodec.optional (flags &&& 0x40 != 0)).decode body
  guard (body = [])
  return {
    clientId := clientId
    cleanSession := flags &&& 0x02 != 0
    keepaliveSeconds := keepaliveSeconds
    username := username
    password := password
    will := will.map (willOf flags) }

/-- The server's reading of one CONNECT and nothing after it. -/
def decodeConnect (bs : Bytes) : Option ConnectParams :=
  match frame bs with
  | .packet p [] => if p.type = .connect then decodeConnectBody p.body else none
  | _ => none

/-- No string is longer than its 16-bit length can say. -/
structure ConnectParams.LengthsFit (p : ConnectParams) : Prop where
  clientId_le : p.clientId.length ≤ 65535
  topic_le : ∀ w ∈ p.will, w.topic.length ≤ 65535
  payload_le : ∀ w ∈ p.will, w.payload.length ≤ 65535
  username_le : ∀ u ∈ p.username, u.length ≤ 65535
  password_le : ∀ s ∈ p.password, s.length ≤ 65535

/-- The parameters whose encoding can be decoded. -/
structure ConnectParams.Fits (p : ConnectParams) : Prop extends p.LengthsFit where
  qos_fits : ∀ w ∈ p.will, 0 ≤ w.qos ∧ w.qos ≤ 3

/-! ## The decoder's values fit -/

theorem qos_of_flags (flags : UInt8) : ((flags >>> 3) &&& 0x03).toNat ≤ 3 := by
  simp only [UInt8.toNat_and, UInt8.reduceToNat]
  exact Nat.and_le_right

/-- Whatever the input, the decoder returns parameters that fit. -/
theorem fits_of_decodeConnectBody {body : Bytes} {p : ConnectParams}
    (h : decodeConnectBody body = some p) : p.Fits := by
  simp only [decodeConnectBody, Option.bind_eq_bind, Option.bind_eq_some_iff, Prod.exists,
    PrefixCodec.decode_eq_some_iff, Option.pure_def, Option.some.injEq] at h
  obtain ⟨name, b₁, -, -, -, level, b₂, -, -, -, flags, b₃, -, keepalive, b₄, -, clientId, b₅,
    ⟨hclient, -⟩, will, b₆, ⟨⟨-, hwill⟩, -⟩, username, b₇, ⟨⟨-, huser⟩, -⟩, password, b₈,
    ⟨⟨-, hpass⟩, -⟩, -, -, rfl⟩ := h
  refine ⟨⟨hclient, fun w hw => ?_, fun w hw => ?_, huser, hpass⟩, fun w hw => ?_⟩ <;>
    obtain ⟨t, ht, rfl⟩ := Option.mem_map.mp hw
  · exact (hwill t ht).1
  · exact (hwill t ht).2
  · have := qos_of_flags flags
    simp only [willOf]
    omega

theorem fits_of_decodeConnect {bs : Bytes} {p : ConnectParams} (h : decodeConnect bs = some p) :
    p.Fits := by
  unfold decodeConnect at h
  split at h
  · simp only [Option.ite_none_right_eq_some] at h
    exact fits_of_decodeConnectBody h.2
  · contradiction

/-! ## What the encoder writes -/

/-- The flag byte, from the presence of the optional fields and the will's QoS and retain bit. -/
def connectFlags (cleanSession : Bool) (will : Option (UInt8 × Bool)) (username password : Bool) :
    UInt8 :=
  let flags : UInt8 := 0
  let flags := if cleanSession then flags ||| 0x02 else flags
  let flags := match will with
    | some (qos, retained) =>
      let flags := flags ||| 0x04
      let flags := flags ||| (qos <<< 3)
      if retained then flags ||| 0x20 else flags
    | none => flags
  let flags := if username then flags ||| 0x80 else flags
  if password then flags ||| 0x40 else flags

/-- The flag byte that `buildConnect` writes. -/
def ConnectParams.flags (p : ConnectParams) : UInt8 :=
  connectFlags p.cleanSession (p.will.map fun w => (qosBits w.qos, w.retained))
    p.username.isSome p.password.isSome

/-- The fields after the fixed header, in order. -/
def connectLayout (p : ConnectParams) : Bytes :=
  stringCodec.encode (ascii "MQTT") ++ (byteCodec.encode 4 ++ (byteCodec.encode p.flags ++
    (u16Codec.encode p.keepaliveSeconds ++ (stringCodec.encode p.clientId ++
      ((willCodec.optional p.will.isSome).encode (p.will.map fun w => (w.topic, w.payload)) ++
        ((stringCodec.optional p.username.isSome).encode p.username ++
          ((stringCodec.optional p.password.isSome).encode p.password ++ [])))))))

theorem buildConnect_eq (p : ConnectParams) :
    buildConnect p = prependFixedHeader (connectLayout p) 0x10 := by
  obtain ⟨clientId, cleanSession, keepalive, username, password, will⟩ := p
  cases will <;> cases username <;> cases password <;>
    simp [buildConnect, connectLayout, ConnectParams.flags, connectFlags, PrefixCodec.optional,
      PrefixCodec.seq, willCodec, stringCodec, byteCodec, u16Codec, appendMqttString_eq,
      appendU16_eq]

/-- Every bit of the flag byte means what the decoder takes it to mean. -/
theorem connectFlags_bits (cleanSession : Bool) (will : Option (Fin 4 × Bool))
    (username password : Bool) :
    let flags := connectFlags cleanSession (will.map fun w => (UInt8.ofNat w.1.val, w.2))
      username password
    (flags &&& 0x02 != 0) = cleanSession ∧ (flags &&& 0x04 != 0) = will.isSome ∧
      (flags &&& 0x80 != 0) = username ∧ (flags &&& 0x40 != 0) = password ∧
      ∀ w ∈ will, ((flags >>> 3) &&& 0x03).toNat = w.1.val ∧ (flags &&& 0x20 != 0) = w.2 := by
  revert cleanSession will username password
  decide

theorem ConnectParams.flags_bits (p : ConnectParams) :
    (p.flags &&& 0x02 != 0) = p.cleanSession ∧ (p.flags &&& 0x04 != 0) = p.will.isSome ∧
      (p.flags &&& 0x80 != 0) = p.username.isSome ∧ (p.flags &&& 0x40 != 0) = p.password.isSome ∧
      ∀ w ∈ p.will, (((p.flags >>> 3) &&& 0x03).toNat : ℤ) = w.qos % 4 ∧
        (p.flags &&& 0x20 != 0) = w.retained := by
  cases hw : p.will with
  | none =>
    have h := connectFlags_bits p.cleanSession none p.username.isSome p.password.isSome
    rw [ConnectParams.flags, hw]
    simpa using h
  | some w =>
    obtain ⟨k, hq, hk⟩ := qosBits_cases w.qos
    have h := connectFlags_bits p.cleanSession (some (k, w.retained)) p.username.isSome
      p.password.isSome
    rw [ConnectParams.flags, hw]
    simp only [Option.map_some, hk, Option.mem_some_iff, forall_eq', hq] at h ⊢
    exact_mod_cast h

theorem length_optional_string (o : Option Bytes) :
    ((stringCodec.optional o.isSome).encode o).length = o.elim 0 fun s => 2 + s.length := by
  cases o with
  | none => rfl
  | some s => exact length_stringCodec_encode s

theorem length_connectLayout (p : ConnectParams) :
    (connectLayout p).length = 12 + p.clientId.length +
      p.will.elim 0 (fun w => 4 + w.topic.length + w.payload.length) +
      p.username.elim 0 (fun u => 2 + u.length) + p.password.elim 0 fun s => 2 + s.length := by
  have hname : (ascii "MQTT").length = 4 := by decide
  have hwill : ((willCodec.optional p.will.isSome).encode
      (p.will.map fun w => (w.topic, w.payload))).length =
        p.will.elim 0 fun w => 4 + w.topic.length + w.payload.length := by
    cases p.will with
    | none => rfl
    | some w =>
      simp only [PrefixCodec.optional, willCodec, PrefixCodec.seq, Option.map_some,
        Option.elim_some, List.length_append, length_stringCodec_encode]
      omega
  simp only [connectLayout, List.length_append, length_stringCodec_encode, hname, byteCodec,
    u16Codec, length_u16Bytes, length_optional_string, hwill, List.length_singleton,
    List.length_nil]
  omega

/-- Strings that fit are far too few to fill the remaining length. -/
theorem length_connectLayout_lt {p : ConnectParams} (h : p.LengthsFit) :
    (connectLayout p).length < 2 ^ 28 := by
  have hopt : ∀ {o : Option Bytes}, (∀ s ∈ o, s.length ≤ 65535) →
      o.elim 0 (fun s => 2 + s.length) ≤ 65537 := by
    intro o ho
    cases o with
    | none => simp
    | some s =>
      have := ho s rfl
      simp only [Option.elim_some]
      omega
  have hwill : p.will.elim 0 (fun w => 4 + w.topic.length + w.payload.length) ≤ 2 * 65537 := by
    cases hw : p.will with
    | none => simp
    | some w =>
      have := h.topic_le w hw
      have := h.payload_le w hw
      simp only [Option.elim_some]
      omega
  have huser := hopt h.username_le
  have hpass := hopt h.password_le
  have hclient := h.clientId_le
  rw [length_connectLayout]
  omega

theorem decodeConnectBody_layout {p : ConnectParams} (h : p.Fits) :
    decodeConnectBody (connectLayout p) = some p := by
  obtain ⟨hclean, hwill, huser, hpass, hbits⟩ := p.flags_bits
  have hname : (ascii "MQTT").length ≤ 65535 := by decide
  have hvalid : (willCodec.optional p.will.isSome).Valid
      (p.will.map fun w => (w.topic, w.payload)) := by
    refine ⟨Option.isSome_map, fun t ht => ?_⟩
    obtain ⟨w, hw, rfl⟩ := Option.mem_map.mp ht
    exact ⟨h.topic_le w hw, h.payload_le w hw⟩
  have hback : (p.will.map fun w => (w.topic, w.payload)).map (willOf p.flags) = p.will := by
    cases hw : p.will with
    | none => rfl
    | some w =>
      obtain ⟨hq, hr⟩ := hbits w hw
      have := h.qos_fits w hw
      simp only [Option.map_some, willOf, hq, hr, Option.some.injEq]
      rw [Int.emod_eq_of_lt this.1 (by omega)]
  simp only [decodeConnectBody, connectLayout, Option.bind_eq_bind,
    stringCodec.decode_encode hname, byteCodec_decode_encode, u16Codec_decode_encode,
    stringCodec.decode_encode h.clientId_le, Option.bind_some, hwill, huser, hpass,
    hclean, PrefixCodec.decode_encode _ hvalid, hback, pure, if_true, guard,
    (stringCodec.optional p.username.isSome).decode_encode ⟨rfl, h.username_le⟩,
    (stringCodec.optional p.password.isSome).decode_encode ⟨rfl, h.password_le⟩]

/-- Decoding an encoded CONNECT gives its parameters back, just when they fit. -/
theorem connect_roundtrip_iff (p : ConnectParams) :
    decodeConnect (buildConnect p) = some p ↔ p.Fits := by
  constructor
  · exact fits_of_decodeConnect
  · intro h
    have hf := frame_prependFixedHeader (connectLayout p) [] 0x10
      (length_connectLayout_lt h.toLengthsFit)
    rw [List.append_nil] at hf
    rw [buildConnect_eq, decodeConnect, hf]
    exact decodeConnectBody_layout h

end MqttNativeSocket
