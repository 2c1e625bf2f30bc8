import MqttNativeSocket.Foundations.PrefixCodec
import MqttNativeSocket.Protocol.Framing

/-! # Packet fields

The fields of MQTT packets as prefix codecs: one byte, a 16-bit number, a string
of at most 65535 bytes after its length. A body is taken out of a stream by the
type of the first packet.
-/

namespace MqttNativeSocket

def byteCodec : PrefixCodec UInt8 UInt8 where
  Valid _ := True
  encode b := [b]
  decode
    | [] => none
    | b :: bs => some (b, bs)
  decode_eq_some_iff bs b rest := by
    cases bs with
    | nil => simp
    | cons b' bs => simp

def u16Codec : PrefixCodec UInt8 UInt16 where
  Valid _ := True
  encode := u16Bytes
  decode
    | hi :: lo :: bs => some ((hi.toUInt16 <<< 8) ||| lo.toUInt16, bs)
    | _ => none
  decode_eq_some_iff bs v rest := by
    match bs with
    | [] => simp [u16Bytes]
    | [b] => simp [u16Bytes]
    | hi :: lo :: bs =>
      simp only [Option.some.injEq, Prod.mk.injEq, true_and]
      constructor
      · rintro ⟨rfl, rfl⟩
        rw [split_join]
        rfl
      · intro h
        simp only [u16Bytes, List.cons_append, List.nil_append, List.cons.injEq] at h
        obtain ⟨rfl, rfl, rfl⟩ := h
        exact ⟨join_split v, rfl⟩

@[simp] theorem byteCodec_decode_encode (b : UInt8) (rest : Bytes) :
    byteCodec.decode (byteCodec.encode b ++ rest) = some (b, rest) := rfl

@[simp] theorem u16Codec_decode_encode (v : UInt16) (rest : Bytes) :
    u16Codec.decode (u16Codec.encode v ++ rest) = some (v, rest) :=
  u16Codec.decode_encode trivial rest

/-- A string as `appendMqttString` writes it, if its length is not cut. -/
def stringCodec : PrefixCodec UInt8 Bytes where
  Valid s := s.length ≤ 65535
  encode s := u16Bytes (UInt16.ofNat s.length) ++ s
  decode bs := (u16Codec.decode bs).bind fun (n, bs) =>
    if n.toNat ≤ bs.length then some (bs.take n.toNat, bs.drop n.toNat) else none
  decode_eq_some_iff bs s rest := by
    simp only [Option.bind_eq_some_iff, Prod.exists, u16Codec.decode_eq_some_iff,
      Option.ite_none_right_eq_some, Option.some.injEq, Prod.mk.injEq]
    constructor
    · rintro ⟨n, bs', ⟨-, rfl⟩, hn, rfl, rfl⟩
      have hl : (bs'.take n.toNat).length = n.toNat := List.length_take_of_le hn
      rw [hl, UInt16.ofNat_toNat, List.append_assoc, List.take_append_drop]
      have := n.toNat_lt
      exact ⟨by omega, rfl⟩
    · rintro ⟨hs, rfl⟩
      have hn : (UInt16.ofNat s.length).toNat = s.length :=
        UInt16.toNat_ofNat_of_lt' (by simpa [UInt16.size] using Nat.lt_succ_of_le hs)
      refine ⟨_, s ++ rest, ⟨trivial, List.append_assoc ..⟩, ?_⟩
      rw [hn]
      simp

theorem stringCodec_encode_ne_nil (s : Bytes) : stringCodec.encode s ≠ [] := by
  simp [stringCodec, u16Bytes]

theorem length_stringCodec_encode (s : Bytes) :
    (stringCodec.encode s).length = 2 + s.length := by
  simp [stringCodec]

/-- The body of the packet at the front of a stream, if it is of the type asked for. -/
def bodyOf (type : PacketType) (bs : Bytes) : Option Bytes :=
  match frame bs with
  | .packet p _ => if p.type = type then some p.body else none
  | .malformed _ => none
  | .incomplete => none

/-- The body found in a framed one is cut where its length field says. -/
theorem bodyOf_framed {type : PacketType} {typeByte : UInt8} {body got : Bytes}
    (htype : PacketType.ofUInt8 (typeByte >>> 4) = type) (more : Bytes) :
    bodyOf type (prependFixedHeader body typeByte ++ more) = some got ↔
      body.length % 2 ^ 32 < 2 ^ 28 ∧ got = body.take (body.length % 2 ^ 32) := by
  rcases Nat.lt_or_ge (body.length % 2 ^ 32) (2 ^ 28) with hlt | hge
  · rw [bodyOf, frame_framed body more typeByte hlt]
    simp only [htype, if_true, hlt, true_and, Option.some.injEq]
    exact eq_comm
  · obtain ⟨rest, hf⟩ := frame_framed_overlong body more typeByte hge
    rw [bodyOf, hf]
    exact iff_of_false (by simp) fun h => absurd h.1 (Nat.not_lt.mpr hge)

theorem bodyOf_prependFixedHeader {type : PacketType} {typeByte : UInt8} {body : Bytes}
    (htype : PacketType.ofUInt8 (typeByte >>> 4) = type) (more : Bytes)
    (h : body.length < 2 ^ 28) :
    bodyOf type (prependFixedHeader body typeByte ++ more) = some body := by
  have hm : body.length % 2 ^ 32 = body.length := Nat.mod_eq_of_lt (by omega)
  rw [bodyOf_framed htype, hm]
  exact ⟨h, List.take_length.symm⟩

end MqttNativeSocket
