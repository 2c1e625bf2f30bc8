import MqttNativeSocket.Protocol.Fields
import MqttNativeSocket.Protocol.PublishCodec

/-! # Encoding and decoding SUBSCRIBE and UNSUBSCRIBE

A broker reads the packet identifier and then entries until the body is used up.
It recovers the list that was encoded exactly when every string fits its 16-bit
length, every QoS two bits and the body 28 bits. A wrong length in one entry
would shift the later ones, so the list is compared entry by entry.
-/

namespace MqttNativeSocket

theorem map_toNat_eq_some_iff (bs : Bytes) (q : ℤ) (rest : Bytes) :
    (byteCodec.decode bs).map (fun p => ((p.1.toNat : ℤ), p.2)) = some (q, rest) ↔
      (0 ≤ q ∧ q ≤ 255) ∧ bs = [UInt8.ofNat q.toNat] ++ rest := by
  simp only [Option.map_eq_some_iff, Prod.exists, byteCodec.decode_eq_some_iff, Prod.mk.injEq]
  constructor
  · rintro ⟨b, bs', ⟨-, rfl⟩, rfl, rfl⟩
    have := b.toNat_lt
    exact ⟨by omega, by simp [byteCodec]⟩
  · rintro ⟨hq, rfl⟩
    refine ⟨UInt8.ofNat q.toNat, rest, ⟨trivial, rfl⟩, ?_, rfl⟩
    rw [UInt8.toNat_ofNat']
    omega

/-- The QoS byte of a topic filter. -/
def qosCodec : PrefixCodec UInt8 ℤ where
  Valid q := 0 ≤ q ∧ q ≤ 255
  encode q := [UInt8.ofNat q.toNat]
  decode bs := (byteCodec.decode bs).map fun p => ((p.1.toNat : ℤ), p.2)
  decode_eq_some_iff := map_toNat_eq_some_iff

/-- A topic filter and its QoS. -/
def entryCodec : PrefixCodec UInt8 (Bytes × ℤ) := stringCodec.seq qosCodec

def decodeSubscribe (bs : Bytes) : Option (UInt16 × List (Bytes × ℤ)) := do
  let body ← bodyOf .subscribe bs
  let (packetId, body) ← u16Codec.decode body
  let subs ← entryCodec.all body
  return (packetId, subs)

def decodeUnsubscribe (bs : Bytes) : Option (UInt16 × List Bytes) := do
  let body ← bodyOf .unsubscribe bs
  let (packetId, body) ← u16Codec.decode body
  let topics ← stringCodec.all body
  return (packetId, topics)

/-! ## What the encoders write -/

/-- One entry as `buildSubscribe` writes it. -/
def subscribeEntry (e : Bytes × ℤ) : Bytes := stringCodec.encode e.1 ++ [qosBits e.2]

def subscribeLayout (packetId : UInt16) (subs : List (Bytes × ℤ)) : Bytes :=
  u16Codec.encode packetId ++ subs.flatMap subscribeEntry

def unsubscribeLayout (packetId : UInt16) (topics : List Bytes) : Bytes :=
  u16Codec.encode packetId ++ topics.flatMap stringCodec.encode

theorem foldl_append_eq_flatMap {ι : Type*} (f : Bytes → ι → Bytes) (g : ι → Bytes)
    (h : ∀ body x, f body x = body ++ g x) (body : Bytes) (xs : List ι) :
    xs.foldl f body = body ++ xs.flatMap g := by
  induction xs generalizing body with
  | nil => simp
  | cons x xs ih => rw [List.foldl_cons, ih, h, List.flatMap_cons, List.append_assoc]

theorem buildSubscribe_eq (packetId : UInt16) (subs : List (Bytes × ℤ)) :
    buildSubscribe packetId subs =
      prependFixedHeader (subscribeLayout packetId subs) 0x82 := by
  rw [buildSubscribe, foldl_append_eq_flatMap _ subscribeEntry, appendU16_eq, List.nil_append]
  · rfl
  · intro body e
    simp [subscribeEntry, stringCodec, appendMqttString_eq]

theorem buildUnsubscribe_eq (packetId : UInt16) (topics : List Bytes) :
    buildUnsubscribe packetId topics =
      prependFixedHeader (unsubscribeLayout packetId topics) 0xA2 := by
  rw [buildUnsubscribe, foldl_append_eq_flatMap _ stringCodec.encode, appendU16_eq,
    List.nil_append]
  · rfl
  · intro body s
    rw [appendMqttString_eq]
    rfl

/-! ## Entry by entry -/

/-- Lists written with entries of the same lengths are written the same only entry by entry. -/
theorem forall_eq_of_flatMap_eq {ι : Type*} {f g : ι → Bytes}
    (hl : ∀ x, (f x).length = (g x).length) {xs : List ι} (h : xs.flatMap f = xs.flatMap g) :
    ∀ x ∈ xs, f x = g x := by
  induction xs with
  | nil => simp
  | cons x xs ih =>
    rw [List.flatMap_cons, List.flatMap_cons] at h
    obtain ⟨hx, hxs⟩ := List.append_inj h (hl x)
    exact List.forall_mem_cons.mpr ⟨hx, ih hxs⟩

theorem length_flatMap_congr {ι : Type*} {f g : ι → Bytes}
    (hl : ∀ x, (f x).length = (g x).length) (xs : List ι) :
    (xs.flatMap f).length = (xs.flatMap g).length := by
  simp only [List.length_flatMap, hl]

theorem length_subscribeEntry (e : Bytes × ℤ) :
    (subscribeEntry e).length = (entryCodec.encode e).length := by
  simp [subscribeEntry, entryCodec, PrefixCodec.seq, qosCodec]

/-- The two low bits of a QoS byte are the whole byte up to 3 only. -/
theorem qosBits_eq_iff {q : ℤ} (h : 0 ≤ q ∧ q ≤ 255) :
    qosBits q = UInt8.ofNat q.toNat ↔ q ≤ 3 := by
  rw [qosBits, ← UInt8.toNat_inj, UInt8.toNat_ofNat', UInt8.toNat_ofNat']
  omega

theorem subscribeEntry_eq_iff {e : Bytes × ℤ} (h : 0 ≤ e.2 ∧ e.2 ≤ 255) :
    subscribeEntry e = entryCodec.encode e ↔ e.2 ≤ 3 := by
  rw [← qosBits_eq_iff h]
  simp [subscribeEntry, entryCodec, PrefixCodec.seq, qosCodec]

/-- A framed body is decoded in full or not at all. -/
theorem framed_bodyOf_of_length {type : PacketType} {typeByte : UInt8} {body got more : Bytes}
    (htype : PacketType.ofUInt8 (typeByte >>> 4) = type)
    (h : bodyOf type (prependFixedHeader body typeByte ++ more) = some got)
    (hl : got.length = body.length) : got = body ∧ body.length < 2 ^ 28 := by
  obtain ⟨hlt, rfl⟩ := (bodyOf_framed htype more).mp h
  rw [List.length_take_of_le (Nat.mod_le _ _)] at hl
  rw [hl] at hlt ⊢
  exact ⟨List.take_length, hlt⟩

theorem decodeSubscribe_eq_some_iff {bs : Bytes} {packetId : UInt16} {subs : List (Bytes × ℤ)} :
    decodeSubscribe bs = some (packetId, subs) ↔ (∀ e ∈ subs, entryCodec.Valid e) ∧
      bodyOf .subscribe bs = some (u16Codec.encode packetId ++ subs.flatMap entryCodec.encode) := by
  have hne : ∀ e, entryCodec.Valid e → entryCodec.encode e ≠ [] := by
    simp [entryCodec, PrefixCodec.seq, qosCodec]
  simp only [decodeSubscribe, Option.bind_eq_bind, Option.bind_eq_some_iff, Prod.exists,
    u16Codec.decode_eq_some_iff, entryCodec.all_eq_some_iff hne, Option.pure_def,
    Option.some.injEq, Prod.mk.injEq]
  constructor
  · rintro ⟨body, hb, id, rest, ⟨-, rfl⟩, subs, ⟨hs, rfl⟩, rfl, rfl⟩
    exact ⟨hs, hb⟩
  · rintro ⟨hs, hb⟩
    exact ⟨_, hb, packetId, _, ⟨trivial, rfl⟩, subs, ⟨hs, rfl⟩, rfl, rfl⟩

theorem decodeUnsubscribe_eq_some_iff {bs : Bytes} {packetId : UInt16} {topics : List Bytes} :
    decodeUnsubscribe bs = some (packetId, topics) ↔ (∀ s ∈ topics, s.length ≤ 65535) ∧
      bodyOf .unsubscribe bs = some (unsubscribeLayout packetId topics) := by
  simp only [decodeUnsubscribe, Option.bind_eq_bind, Option.bind_eq_some_iff, Prod.exists,
    u16Codec.decode_eq_some_iff, stringCodec.all_eq_some_iff fun s _ => stringCodec_encode_ne_nil s,
    Option.pure_def, Option.some.injEq, Prod.mk.injEq]
  constructor
  · rintro ⟨body, hb, id, rest, ⟨-, rfl⟩, topics, ⟨hs, rfl⟩, rfl, rfl⟩
    exact ⟨hs, hb⟩
  · rintro ⟨hs, hb⟩
    exact ⟨_, hb, packetId, _, ⟨trivial, rfl⟩, topics, ⟨hs, rfl⟩, rfl, rfl⟩

/-- The entries and the list that a SUBSCRIBE can carry. -/
def SubscribeFits (packetId : UInt16) (subs : List (Bytes × ℤ)) : Prop :=
  (∀ e ∈ subs, e.1.length ≤ 65535 ∧ 0 ≤ e.2 ∧ e.2 ≤ 3) ∧
    (subscribeLayout packetId subs).length ≤ 268435455

def UnsubscribeFits (packetId : UInt16) (topics : List Bytes) : Prop :=
  (∀ s ∈ topics, s.length ≤ 65535) ∧ (unsubscribeLayout packetId topics).length ≤ 268435455

theorem decodeSubscribe_buildSubscribe_iff (packetId : UInt16) (subs : List (Bytes × ℤ))
    (more : Bytes) :
    decodeSubscribe (buildSubscribe packetId subs ++ more) = some (packetId, subs) ↔
      SubscribeFits packetId subs := by
  rw [buildSubscribe_eq, decodeSubscribe_eq_some_iff]
  constructor
  · rintro ⟨hv, hb⟩
    have hl : (u16Codec.encode packetId ++ subs.flatMap entryCodec.encode).length =
        (subscribeLayout packetId subs).length := by
      rw [subscribeLayout, List.length_append, List.length_append,
        length_flatMap_congr length_subscribeEntry]
    obtain ⟨he, hlt⟩ := framed_bodyOf_of_length rfl hb hl
    have hentries := forall_eq_of_flatMap_eq length_subscribeEntry (List.append_cancel_left he).symm
    refine ⟨fun e hmem => ?_, Nat.le_of_lt_succ hlt⟩
    obtain ⟨hs, hq⟩ := hv e hmem
    exact ⟨hs, hq.1, (subscribeEntry_eq_iff hq).mp (hentries e hmem)⟩
  · rintro ⟨hfit, hl⟩
    have hentries : subs.flatMap subscribeEntry = subs.flatMap entryCodec.encode :=
      List.flatMap_congr fun e he =>
        (subscribeEntry_eq_iff ⟨(hfit e he).2.1, by have := (hfit e he).2.2; omega⟩).mpr
          (hfit e he).2.2
    refine ⟨fun e he => ?_, ?_⟩
    · obtain ⟨hs, h0, h3⟩ := hfit e he
      exact ⟨hs, h0, by omega⟩
    · rw [← hentries]
      exact bodyOf_prependFixedHeader rfl more (Nat.lt_succ_of_le hl)

theorem decodeUnsubscribe_buildUnsubscribe_iff (packetId : UInt16) (topics : List Bytes)
    (more : Bytes) :
    decodeUnsubscribe (buildUnsubscribe packetId topics ++ more) = some (packetId, topics) ↔
      UnsubscribeFits packetId topics := by
  rw [buildUnsubscribe_eq, decodeUnsubscribe_eq_some_iff]
  constructor
  · rintro ⟨hv, hb⟩
    exact ⟨hv, Nat.le_of_lt_succ (framed_bodyOf_of_length rfl hb rfl).2⟩
  · rintro ⟨hs, hl⟩
    exact ⟨hs, bodyOf_prependFixedHeader rfl more (Nat.lt_succ_of_le hl)⟩

/-- Both list encodings are recovered from the front of a stream, just when they fit. -/
theorem subscription_roundtrip_iff (packetId : UInt16) (subs : List (Bytes × ℤ))
    (topics : List Bytes) (more : Bytes) :
    (decodeSubscribe (buildSubscribe packetId subs ++ more) = some (packetId, subs) ↔
        SubscribeFits packetId subs) ∧
      (decodeUnsubscribe (buildUnsubscribe packetId topics ++ more) = some (packetId, topics) ↔
        UnsubscribeFits packetId topics) :=
  ⟨decodeSubscribe_buildSubscribe_iff packetId subs more,
    decodeUnsubscribe_buildUnsubscribe_iff packetId topics more⟩

end MqttNativeSocket
