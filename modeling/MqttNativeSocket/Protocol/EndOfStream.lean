import MqttNativeSocket.Protocol.Reader

/-! # Reading from a stream that ends

What `readPacket` makes of any bytes with nothing after them: a packet, four length bytes
that ask for a fifth, or the error with which the transport reports the end. The length
loop gives what a loop over natural numbers gives, so its 32 bits never wrap.
-/

namespace MqttNativeSocket

/-- The packet `p` stands at the front of the stream, and `rest` follows it. -/
def BeginsWithPacket (stream : Bytes) (p : IncomingPacket) (rest : Bytes) : Prop :=
  ∃ (b0 : UInt8) (field : Bytes), stream = b0 :: (field ++ (p.body ++ rest)) ∧
    field.length ≤ 4 ∧ VarLen.IsField 128 UInt8.toNat field ∧
    p.body.length = VarLen.value 128 UInt8.toNat field ∧
    p.type = PacketType.ofUInt8 (b0 >>> 4) ∧ p.flags = b0 &&& 0x0F

/-- The first four length bytes all have their high bit set. -/
def BeginsOverlong (stream rest : Bytes) : Prop :=
  ∃ (b0 : UInt8) (field : Bytes), stream = b0 :: (field ++ rest) ∧
    field.length = 4 ∧ ∀ b ∈ field, 128 ≤ b.toNat

theorem frame_eq_packet_iff {stream rest : Bytes} {p : IncomingPacket} :
    frame stream = .packet p rest ↔ BeginsWithPacket stream p rest := by
  constructor
  · intro h
    cases stream with
    | nil => cases h
    | cons b0 bs =>
      rw [frame] at h
      split at h
      · next v r hs =>
        obtain ⟨field, rfl, hlength, hfield, rfl⟩ := VarLen.scan_eq_done_iff.mp hs
        split at h
        · next hv =>
          obtain ⟨rfl, rfl⟩ := Frame.packet.inj h
          refine ⟨b0, field, ?_, hlength, hfield, List.length_take_of_le hv, rfl, rfl⟩
          rw [List.take_append_drop]
        · cases h
      · cases h
      · cases h
  · rintro ⟨b0, field, rfl, hlength, hfield, hbody, htype, hflags⟩
    have hs : VarLen.scan 128 UInt8.toNat 4 (field ++ (p.body ++ rest)) = _ :=
      VarLen.scan_eq_done_iff.mpr ⟨field, rfl, hlength, hfield, rfl⟩
    obtain ⟨type, flags, body⟩ := p
    obtain rfl : type = _ := htype
    obtain rfl : flags = _ := hflags
    rw [frame, hs]
    simp only [← hbody, List.take_left, List.drop_left]
    rw [if_pos (by simp)]

theorem frame_eq_malformed_iff {stream rest : Bytes} :
    frame stream = .malformed rest ↔ BeginsOverlong stream rest := by
  constructor
  · intro h
    cases stream with
    | nil => cases h
    | cons b0 bs =>
      rw [frame] at h
      split at h
      · split at h <;> cases h
      · next r hs =>
        obtain rfl := Frame.malformed.inj h
        obtain ⟨field, rfl, hfield⟩ := VarLen.scan_eq_overlong_iff.mp hs
        exact ⟨b0, field, rfl, hfield⟩
      · cases h
  · rintro ⟨b0, field, rfl, hfield⟩
    rw [frame, VarLen.scan_eq_overlong_iff.mpr ⟨field, rfl, hfield⟩]

/-! ## The length loop -/

/-- The length loop over numbers that cannot wrap. -/
def readLengthExactly : ℕ → ℕ → ℕ → Net ℕ
  | 0, remaining, _ => return remaining
  | left + 1, remaining, multiplier => do
    let b ← recvByte
    let remaining := remaining + (b &&& 0x7F).toNat * multiplier
    if b &&& 0x80 = 0 then return remaining
    if left = 0 then throw malformedLength
    readLengthExactly left remaining (multiplier * 128)

theorem next_remaining_lt {remaining multiplier : ℕ} (h : remaining < multiplier) (b : UInt8) :
    remaining + (b &&& 0x7F).toNat * multiplier < multiplier * 128 := by
  have hb : (b &&& 0x7F).toNat ≤ 127 := by
    rw [low_bits]
    omega
  nlinarith

/-- Neither accumulator of the loop wraps. -/
theorem readRemainingLength_eq_map {left remaining multiplier : ℕ} (h : remaining < multiplier)
    (hmax : multiplier * 128 ^ left ≤ 2 ^ 28) :
    readRemainingLength left (UInt32.ofNat remaining) (UInt32.ofNat multiplier) =
      UInt32.ofNat <$> readLengthExactly left remaining multiplier := by
  induction left generalizing remaining multiplier with
  | zero =>
    rw [readLengthExactly, map_pure]
    rfl
  | succ left ih =>
    have hnext : multiplier * 128 * 128 ^ left ≤ 2 ^ 28 := by
      rwa [mul_assoc, ← Nat.pow_succ']
    rw [readRemainingLength, readLengthExactly, map_bind]
    refine bind_congr fun b => ?_
    have hsum : UInt32.ofNat remaining + (b &&& 0x7F).toUInt32 * UInt32.ofNat multiplier =
        UInt32.ofNat (remaining + (b &&& 0x7F).toNat * multiplier) := by
      rw [UInt32.ofNat_add, UInt32.ofNat_mul, UInt32.ofNat_uInt8ToNat]
    have hproduct : UInt32.ofNat multiplier * 128 = UInt32.ofNat (multiplier * 128) := by
      rw [UInt32.ofNat_mul]
      rfl
    simp only [hsum, hproduct, ih (next_remaining_lt h b) hnext]
    by_cases hb : b &&& 0x80 = 0
    · rw [if_pos hb, if_pos hb, map_pure]
    · rw [if_neg hb, if_neg hb]
      by_cases hleft : left = 0
      · rw [if_pos hleft, if_pos hleft]
        rfl
      · rw [if_neg hleft, if_neg hleft]

theorem readLengthExactly_le {left remaining multiplier r : ℕ} {t t' : Transport}
    (h : remaining < multiplier) (hmax : multiplier * 128 ^ left ≤ 2 ^ 28)
    (hr : readLengthExactly left remaining multiplier t = some (.ok r, t')) : r ≤ 268435455 := by
  induction left generalizing remaining multiplier t with
  | zero =>
    obtain ⟨hr, -⟩ := Prod.mk.inj (Option.some.inj hr)
    obtain rfl : remaining = r := Except.ok.inj hr
    omega
  | succ left ih =>
    have hnext : multiplier * 128 * 128 ^ left ≤ 2 ^ 28 := by
      rwa [mul_assoc, ← Nat.pow_succ']
    rw [readLengthExactly] at hr
    rcases hb : recvByte t with _ | ⟨e | b, t₁⟩
    · rw [Net.bind_none hb] at hr
      cases hr
    · rw [Net.bind_error hb] at hr
      cases hr
    · rw [Net.bind_ok hb] at hr
      have hlt := next_remaining_lt h b
      split at hr
      · obtain ⟨hr, -⟩ := Prod.mk.inj (Option.some.inj hr)
        obtain rfl : _ = r := Except.ok.inj hr
        have hone : 1 ≤ 128 ^ left := Nat.one_le_pow _ _ (by norm_num)
        have := Nat.mul_le_mul_left (multiplier * 128) hone
        omega
      · split at hr
        · cases hr
        · exact ih hlt hnext hr

/-- The loop recovers what the encoder wrote, just when that took at most four bytes. -/
theorem readRemainingLength_appendVarLen (v : UInt32) {t : Transport} {rest : Bytes}
    {tail : List RecvCall} (hf : t.Feeds (appendVarLen [] v ++ rest) tail) :
    (v.toNat ≤ 268435455 → ∃ recvs,
      readRemainingLength 4 0 1 t = some (.ok v, { t with recvs := recvs }) ∧
        { t with recvs := recvs }.Feeds rest tail) ∧
    (268435455 < v.toNat →
      ∃ t', readRemainingLength 4 0 1 t = some (.error malformedLength, t')) := by
  have hlength := length_varLen_le_four_iff v
  constructor
  · intro hv
    have hs := VarLen.scan_groups_append (by norm_num) (map_varLen v) rest (hlength.mpr (by omega))
    have hfit : (0 : UInt32).toNat + (1 : UInt32).toNat * v.toNat < 2 ^ 32 := by
      have := v.toNat_lt
      simp only [UInt32.reduceToNat]
      omega
    obtain ⟨x, recvs, hr, hx, hf'⟩ := readRemainingLength_done hf hs (by decide) hfit
    obtain rfl : x = v := UInt32.toNat_inj.mp (by simpa using hx)
    exact ⟨recvs, hr, hf'⟩
  · intro hv
    have hs := VarLen.scan_groups_overlong (by norm_num) (map_varLen v) rest
      (show 4 < (varLen v).length by omega)
    obtain ⟨recvs, hr, -⟩ := readRemainingLength_overlong 0 1 hf (by norm_num) hs
    exact ⟨_, hr⟩

/-! ## The end of the stream -/

/-- The error with which a call of the transport reports the end of the file. -/
theorem recvByte_eof (t : Transport) (stop : Bool) (tail : List RecvCall)
    (hs : t.stopFlag = false) :
    ∃ e t', recvByte { t with recvs := ⟨.eof, stop⟩ :: tail } = some (.error e, t') := by
  simp only [recvByte, hs, recvByteLoop]
  cases t.ssl <;> cases stop <;> exact ⟨_, _, rfl⟩

theorem recvExact_eof (t : Transport) (stop : Bool) (tail : List RecvCall)
    (hs : t.stopFlag = false) {n : ℕ} (hn : 0 < n) :
    ∃ e t', recvExact n { t with recvs := ⟨.eof, stop⟩ :: tail } = some (.error e, t') := by
  have hlt : ¬ n ≤ ([] : Bytes).length := not_le.mpr hn
  simp only [recvExact, hs, recvExactLoop, if_neg hlt]
  cases t.ssl <;> cases stop <;> exact ⟨_, _, rfl⟩

section AtEnd

variable {t : Transport} {stream : Bytes} {stop : Bool} {tail : List RecvCall}

theorem BeginsWithPacket.body_le {p : IncomingPacket} {rest : Bytes}
    (h : BeginsWithPacket stream p rest) : p.body.length ≤ 268435455 := by
  obtain ⟨b0, field, -, hlength, hfield, hbody, -⟩ := h
  have hs : VarLen.scan 128 UInt8.toNat 4 (field ++ []) = _ :=
    VarLen.scan_eq_done_iff.mpr ⟨field, rfl, hlength, hfield, hbody.symm⟩
  exact Nat.le_of_lt_succ (VarLen.scan_done_lt (by norm_num) hs)

/-- Neither a packet nor an overlong field is there: the end of the stream is met. -/
theorem readPacket_eof (hf : t.Feeds stream (⟨.eof, stop⟩ :: tail))
    (hi : frame stream = .incomplete) :
    ∃ e t', readPacket t = some (.error e, t') ∧
      (recvByte { t with recvs := ⟨.eof, stop⟩ :: tail } = some (.error e, t') ∨
        ∃ n, recvExact n { t with recvs := ⟨.eof, stop⟩ :: tail } = some (.error e, t')) := by
  obtain ⟨f, hread⟩ | ⟨n, hn, f, hread⟩ := readPacket_incomplete_eq hf hi
  · obtain ⟨e, t', he⟩ := recvByte_eof t stop tail hf.running
    exact ⟨e, t', hread.trans (Net.bind_error he), .inl he⟩
  · obtain ⟨e, t', he⟩ := recvExact_eof t stop tail hf.running hn
    exact ⟨e, t', hread.trans (Net.bind_error he), .inr ⟨n, he⟩⟩

/-- What `readPacket` does with a stream that ends: every case of it. -/
structure ReadsToEnd (t : Transport) (stream : Bytes) (tail : List RecvCall) : Prop where

  succeeds_iff : (∃ p t', readPacket t = some (.ok p, t')) ↔
    ∃ p rest, BeginsWithPacket stream p rest

  packet : ∀ p rest, BeginsWithPacket stream p rest → p.body.length ≤ 268435455 ∧
    ∃ recvs, readPacket t = some (.ok p, { t with recvs := recvs }) ∧
      { t with recvs := recvs }.Feeds rest tail

  overlong : ∀ rest, BeginsOverlong stream rest →
    ∃ recvs, readPacket t = some (.error malformedLength, { t with recvs := recvs }) ∧
      { t with recvs := recvs }.Feeds rest tail

  otherwise : (¬ ∃ p rest, BeginsWithPacket stream p rest) →
    (¬ ∃ rest, BeginsOverlong stream rest) →
    ∃ e t', readPacket t = some (.error e, t') ∧
      (recvByte { t with recvs := tail } = some (.error e, t') ∨
        ∃ n, recvExact n { t with recvs := tail } = some (.error e, t'))

theorem readsToEnd (hf : t.Feeds stream (⟨.eof, stop⟩ :: tail)) :
    ReadsToEnd t stream (⟨.eof, stop⟩ :: tail) where
  succeeds_iff := by
    constructor
    · rintro ⟨p, t', hread⟩
      cases hframe : frame stream with
      | packet q rest => exact ⟨q, rest, frame_eq_packet_iff.mp hframe⟩
      | malformed rest =>
        obtain ⟨recvs, hr, -⟩ := readPacket_malformed hf hframe
        rw [hread] at hr
        cases hr
      | incomplete =>
        obtain ⟨e, t'', hr, -⟩ := readPacket_eof hf hframe
        rw [hread] at hr
        cases hr
    · rintro ⟨p, rest, h⟩
      obtain ⟨recvs, hr, -⟩ := readPacket_packet hf (frame_eq_packet_iff.mpr h)
      exact ⟨p, _, hr⟩
  packet p rest h := ⟨h.body_le, readPacket_packet hf (frame_eq_packet_iff.mpr h)⟩
  overlong rest h := readPacket_malformed hf (frame_eq_malformed_iff.mpr h)
  otherwise hpacket hoverlong := by
    cases hframe : frame stream with
    | packet p rest => exact absurd ⟨p, rest, frame_eq_packet_iff.mp hframe⟩ hpacket
    | malformed rest => exact absurd ⟨rest, frame_eq_malformed_iff.mp hframe⟩ hoverlong
    | incomplete => exact readPacket_eof hf hframe

end AtEnd

/--
Every finite stream with the end of the file behind it is read as its first bytes say; the 32-bit
length loop is the one over natural numbers, below `2 ^ 28`; and it recovers what the encoder wrote
exactly where that is below `2 ^ 28`.
-/
theorem readPacket_of_ended_stream (t : Transport) (stream : Bytes) (stop : Bool)
    (tail : List RecvCall) (hf : t.Feeds stream (⟨.eof, stop⟩ :: tail)) :
    ReadsToEnd t stream (⟨.eof, stop⟩ :: tail) ∧
    (readRemainingLength 4 0 1 = UInt32.ofNat <$> readLengthExactly 4 0 1 ∧
      ∀ t t' r, readLengthExactly 4 0 1 t = some (.ok r, t') → r ≤ 268435455) ∧
    ∀ (v : UInt32) (t : Transport) (rest : Bytes) (tail : List RecvCall),
      t.Feeds (appendVarLen [] v ++ rest) tail →
      (v.toNat ≤ 268435455 → ∃ recvs,
        readRemainingLength 4 0 1 t = some (.ok v, { t with recvs := recvs }) ∧
          { t with recvs := recvs }.Feeds rest tail) ∧
      (268435455 < v.toNat →
        ∃ t', readRemainingLength 4 0 1 t = some (.error malformedLength, t')) :=
  ⟨readsToEnd hf,
    ⟨readRemainingLength_eq_map (by norm_num) (by norm_num),
      fun _ _ _ => readLengthExactly_le (by norm_num) (by norm_num)⟩,
    fun v _ _ _ => readRemainingLength_appendVarLen v⟩

/-- A length of two bytes where one would do, and a body that ends too early. -/
theorem readPacket_of_ended_stream_short :
    ReadsToEnd { recvs := [⟨.data 0x30 [0x81, 0x00], false⟩, ⟨.eof, false⟩] } [0x30, 0x81, 0x00]
      [⟨.eof, false⟩] ∧
    (readRemainingLength 4 0 1 = UInt32.ofNat <$> readLengthExactly 4 0 1 ∧
      ∀ t t' r, readLengthExactly 4 0 1 t = some (.ok r, t') → r ≤ 268435455) ∧
    ∀ (v : UInt32) (t : Transport) (rest : Bytes) (tail : List RecvCall),
      t.Feeds (appendVarLen [] v ++ rest) tail →
      (v.toNat ≤ 268435455 → ∃ recvs,
        readRemainingLength 4 0 1 t = some (.ok v, { t with recvs := recvs }) ∧
          { t with recvs := recvs }.Feeds rest tail) ∧
      (268435455 < v.toNat →
        ∃ t', readRemainingLength 4 0 1 t = some (.error malformedLength, t')) :=
  readPacket_of_ended_stream _ _ false []
    ⟨rfl, [⟨.data 0x30 [0x81, 0x00], false⟩], rfl, by simp [RecvCall.Quiet], rfl⟩

end MqttNativeSocket
