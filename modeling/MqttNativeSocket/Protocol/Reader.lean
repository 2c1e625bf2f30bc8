import MqttNativeSocket.Protocol.Encoding
import MqttNativeSocket.Transport.Delivery

/-! # Reading one packet

`frame` splits a byte stream at its first packet, in terms of the stream alone.
`readPacket` pulls bytes from the transport; however the stream is segmented it
returns the packet that `frame` finds and leaves the bytes that `frame` leaves.
-/

namespace MqttNativeSocket

def malformedLength : MqttException := deserializationFailed "Malformed remaining-length field"

/-- The length loop with `left` iterations to go; `i == 3` is the last of them. -/
def readRemainingLength : ℕ → UInt32 → UInt32 → Net UInt32
  | 0, remaining, _ => return remaining
  | left + 1, remaining, multiplier => do
    let b ← recvByte
    let remaining := remaining + (b &&& 0x7F).toUInt32 * multiplier
    if b &&& 0x80 = 0 then return remaining
    if left = 0 then throw malformedLength
    readRemainingLength left remaining (multiplier * 128)

/-- `readPacket`: exactly one packet from the transport. -/
def readPacket : Net IncomingPacket := do
  let b0 ← recvByte
  let type := PacketType.ofUInt8 (b0 >>> 4)
  let flags := b0 &&& 0x0F
  let remaining ← readRemainingLength 4 0 1
  let body ← if 0 < remaining then recvExact remaining.toNat else pure []
  return ⟨type, flags, body⟩

/-- What stands at the front of a byte stream. -/
inductive Frame where
  | packet (p : IncomingPacket) (rest : Bytes)
  | malformed (rest : Bytes)
  | incomplete
  deriving DecidableEq, Repr

/-- The first packet of a byte stream, without regard to how it arrives. -/
def frame : Bytes → Frame
  | [] => .incomplete
  | b0 :: bs =>
    match VarLen.scan 128 UInt8.toNat 4 bs with
    | .done v rest =>
      if v ≤ rest.length then
        .packet ⟨PacketType.ofUInt8 (b0 >>> 4), b0 &&& 0x0F, rest.take v⟩ (rest.drop v)
      else .incomplete
    | .overlong rest => .malformed rest
    | .truncated => .incomplete

theorem high_bit_clear_iff (b : UInt8) : b &&& 0x80 = 0 ↔ b.toNat < 128 := by
  have h : ∀ n : Fin 256, n.val &&& 128 = 0 ↔ n.val < 128 := by decide +kernel
  rw [← UInt8.toNat_inj]
  simpa using h ⟨b.toNat, b.toNat_lt⟩

theorem low_bits (b : UInt8) : (b &&& 0x7F).toNat = b.toNat % 128 := by
  simpa using Nat.and_two_pow_sub_one_eq_mod b.toNat 7

/-- One step of the accumulator does not wrap while the final value fits. -/
theorem accumulate {remaining multiplier : UInt32} {b : UInt8} {v : ℕ}
    (h : remaining.toNat + multiplier.toNat * (b.toNat % 128 + 128 * v) < 2 ^ 32) :
    (remaining + (b &&& 0x7F).toUInt32 * multiplier).toNat =
      remaining.toNat + multiplier.toNat * (b.toNat % 128) := by
  have hm : multiplier.toNat * (b.toNat % 128 + 128 * v) =
      multiplier.toNat * (b.toNat % 128) + multiplier.toNat * (128 * v) := Nat.mul_add _ _ _
  rw [UInt32.toNat_add, UInt32.toNat_mul, UInt8.toNat_toUInt32, low_bits, Nat.mul_comm,
    Nat.mod_eq_of_lt (a := multiplier.toNat * (b.toNat % 128)) (by omega),
    Nat.mod_eq_of_lt (by omega)]

theorem readRemainingLength_done {left v : ℕ} {remaining multiplier : UInt32} {t : Transport}
    {bs rest : Bytes} {tail : List RecvCall} (hf : t.Feeds bs tail)
    (hs : VarLen.scan 128 UInt8.toNat left bs = .done v rest)
    (hm : multiplier.toNat * 128 ^ left ≤ 2 ^ 28)
    (hv : remaining.toNat + multiplier.toNat * v < 2 ^ 32) :
    ∃ (r : UInt32) (recvs : List RecvCall),
      readRemainingLength left remaining multiplier t = some (.ok r, { t with recvs := recvs }) ∧
      r.toNat = remaining.toNat + multiplier.toNat * v ∧
      { t with recvs := recvs }.Feeds rest tail := by
  induction left generalizing t bs remaining multiplier v with
  | zero => simp [VarLen.scan] at hs
  | succ left ih =>
    cases bs with
    | nil => simp [VarLen.scan] at hs
    | cons b bs =>
      obtain ⟨recvs, hb, hf'⟩ := recvByte_feeds hf
      rw [VarLen.scan] at hs
      split at hs
      · next hlt =>
        -- an unmarked byte ends the field
        simp only [VarLen.Scan.done.injEq] at hs
        obtain ⟨rfl, rfl⟩ := hs
        refine ⟨remaining + (b &&& 0x7F).toUInt32 * multiplier, recvs, ?_, ?_, hf'⟩
        · rw [readRemainingLength, Net.bind_ok hb, if_pos ((high_bit_clear_iff b).mpr hlt)]
          rfl
        · have hfit : remaining.toNat + multiplier.toNat * (b.toNat % 128 + 128 * 0) < 2 ^ 32 := by
            rw [Nat.mod_eq_of_lt hlt]
            simpa using hv
          rw [accumulate hfit, Nat.mod_eq_of_lt hlt]
      · next hge =>
        cases hw : VarLen.scan 128 UInt8.toNat left bs with
        | done w r =>
          rw [hw, VarLen.Scan.push] at hs
          simp only [VarLen.Scan.done.injEq] at hs
          obtain ⟨rfl, rfl⟩ := hs
          have hleft : left ≠ 0 := by rintro rfl; simp [VarLen.scan] at hw
          have ha := accumulate hv
          have hm' : (multiplier * 128).toNat = multiplier.toNat * 128 := by
            have h1 : 1 ≤ 128 ^ left := Nat.one_le_pow _ _ (by norm_num)
            have h2 : multiplier.toNat * 128 ≤ multiplier.toNat * 128 ^ (left + 1) :=
              Nat.mul_le_mul_left _ (by rw [pow_succ]; omega)
            rw [UInt32.toNat_mul]
            exact Nat.mod_eq_of_lt (show multiplier.toNat * 128 < 2 ^ 32 by omega)
          have hm₁ : (multiplier * 128).toNat * 128 ^ left ≤ 2 ^ 28 := by
            rw [hm']
            calc multiplier.toNat * 128 * 128 ^ left
                = multiplier.toNat * 128 ^ (left + 1) := by ring
              _ ≤ 2 ^ 28 := hm
          have hv₁ : (remaining + (b &&& 0x7F).toUInt32 * multiplier).toNat +
              (multiplier * 128).toNat * w < 2 ^ 32 := by
            rw [hm', ha]
            calc remaining.toNat + multiplier.toNat * (b.toNat % 128) + multiplier.toNat * 128 * w
                = remaining.toNat + multiplier.toNat * (b.toNat % 128 + 128 * w) := by ring
              _ < 2 ^ 32 := hv
          obtain ⟨x, recvs', hr, hx, hf''⟩ := ih hf' hw hm₁ hv₁
          refine ⟨x, recvs', ?_, ?_, hf''⟩
          · rw [readRemainingLength, Net.bind_ok hb,
              if_neg (fun h => hge ((high_bit_clear_iff b).mp h)), if_neg hleft]
            exact hr
          · rw [hx, ha, hm']; ring
        | overlong r => rw [hw] at hs; simp [VarLen.Scan.push] at hs
        | truncated => rw [hw] at hs; simp [VarLen.Scan.push] at hs

theorem readRemainingLength_overlong {left : ℕ} (remaining multiplier : UInt32) {t : Transport}
    {bs rest : Bytes} {tail : List RecvCall} (hf : t.Feeds bs tail) (hl : 0 < left)
    (hs : VarLen.scan 128 UInt8.toNat left bs = .overlong rest) :
    ∃ recvs : List RecvCall,
      readRemainingLength left remaining multiplier t =
        some (.error malformedLength, { t with recvs := recvs }) ∧
      { t with recvs := recvs }.Feeds rest tail := by
  induction left generalizing t bs remaining multiplier with
  | zero => omega
  | succ left ih =>
    cases bs with
    | nil => simp [VarLen.scan] at hs
    | cons b bs =>
      obtain ⟨recvs, hb, hf'⟩ := recvByte_feeds hf
      rw [VarLen.scan] at hs
      split at hs
      · simp at hs
      · next hge =>
        have hbit : b &&& 0x80 ≠ 0 := fun h => hge ((high_bit_clear_iff b).mp h)
        rcases Nat.eq_zero_or_pos left with rfl | hleft
        · simp only [VarLen.scan, VarLen.Scan.push, VarLen.Scan.overlong.injEq] at hs
          subst hs
          refine ⟨recvs, ?_, hf'⟩
          rw [readRemainingLength, Net.bind_ok hb, if_neg hbit, if_pos rfl]
          rfl
        · cases hw : VarLen.scan 128 UInt8.toNat left bs with
          | overlong r =>
            rw [hw, VarLen.Scan.push, VarLen.Scan.overlong.injEq] at hs
            subst hs
            obtain ⟨recvs', hr, hf''⟩ := ih _ _ hf' hleft hw
            refine ⟨recvs', ?_, hf''⟩
            rw [readRemainingLength, Net.bind_ok hb, if_neg hbit, if_neg hleft.ne']
            exact hr
          | done v r => rw [hw] at hs; simp [VarLen.Scan.push] at hs
          | truncated => rw [hw] at hs; simp [VarLen.Scan.push] at hs

/-- The reader returns the packet at the front of the stream and consumes just that. -/
theorem readPacket_packet {t : Transport} {bs rest : Bytes} {p : IncomingPacket}
    {tail : List RecvCall} (hf : t.Feeds bs tail) (h : frame bs = .packet p rest) :
    ∃ recvs : List RecvCall, readPacket t = some (.ok p, { t with recvs := recvs }) ∧
      { t with recvs := recvs }.Feeds rest tail := by
  cases bs with
  | nil => simp [frame] at h
  | cons b0 bs =>
    obtain ⟨recvs, hb, hf₁⟩ := recvByte_feeds hf
    cases hs : VarLen.scan 128 UInt8.toNat 4 bs with
    | overlong r => simp [frame, hs] at h
    | truncated => simp [frame, hs] at h
    | done v r =>
      simp only [frame, hs] at h
      split at h
      · next hv =>
        simp only [Frame.packet.injEq] at h
        obtain ⟨rfl, rfl⟩ := h
        have hlt : v < 128 ^ 4 := VarLen.scan_done_lt (by norm_num) hs
        have hfit : (0 : UInt32).toNat + (1 : UInt32).toNat * v < 2 ^ 32 := by
          simp only [UInt32.reduceToNat]
          omega
        obtain ⟨x, recvs', hr, hx, hf₂⟩ := readRemainingLength_done hf₁ hs (by decide) hfit
        obtain rfl : x.toNat = v := by simpa using hx
        rw [readPacket, Net.bind_ok hb, Net.bind_ok hr]
        by_cases h0 : 0 < x
        · have hlen : (r.take x.toNat).length = x.toNat := List.length_take_of_le hv
          rw [← List.take_append_drop x.toNat r] at hf₂
          obtain ⟨recvs₃, he, hf₃⟩ := recvExact_feeds hf₂
          rw [hlen] at he
          refine ⟨recvs₃, ?_, hf₃⟩
          rw [if_pos h0, Net.bind_ok he]
          rfl
        · have hx0 : x.toNat = 0 := by
            rw [UInt32.lt_iff_toNat_lt] at h0
            simpa using h0
          rw [hx0, List.take_zero, List.drop_zero]
          refine ⟨recvs', ?_, hf₂⟩
          rw [if_neg h0]
          rfl
      · simp at h

/-- Four continued length bytes end the call after five bytes. -/
theorem readPacket_malformed {t : Transport} {bs rest : Bytes} {tail : List RecvCall}
    (hf : t.Feeds bs tail) (h : frame bs = .malformed rest) :
    ∃ recvs : List RecvCall,
      readPacket t = some (.error malformedLength, { t with recvs := recvs }) ∧
      { t with recvs := recvs }.Feeds rest tail := by
  cases bs with
  | nil => simp [frame] at h
  | cons b0 bs =>
    obtain ⟨recvs, hb, hf₁⟩ := recvByte_feeds hf
    cases hs : VarLen.scan 128 UInt8.toNat 4 bs with
    | overlong r =>
      simp only [frame, hs, Frame.malformed.injEq] at h
      subst h
      obtain ⟨recvs', hr, hf₂⟩ := readRemainingLength_overlong 0 1 hf₁ (by norm_num) hs
      exact ⟨recvs', by rw [readPacket, Net.bind_ok hb, Net.bind_error hr], hf₂⟩
    | truncated => simp [frame, hs] at h
    | done v r => simp only [frame, hs] at h; split at h <;> simp at h

theorem readRemainingLength_truncated {left : ℕ} (remaining multiplier : UInt32) {t : Transport}
    {bs : Bytes} {tail : List RecvCall} (hf : t.Feeds bs tail)
    (hs : VarLen.scan 128 UInt8.toNat left bs = .truncated) (hl : 0 < left) :
    ∃ f : UInt8 → Net UInt32,
      readRemainingLength left remaining multiplier t =
        (recvByte >>= f) { t with recvs := tail } := by
  induction left generalizing t bs remaining multiplier with
  | zero => omega
  | succ left ih =>
    cases bs with
    | nil => exact ⟨_, Net.bind_congr (recvByte_exhausted hf)⟩
    | cons b bs =>
      obtain ⟨recvs, hb, hf'⟩ := recvByte_feeds hf
      rw [VarLen.scan] at hs
      split at hs
      · simp at hs
      · next hge =>
        rw [VarLen.push_eq_truncated_iff] at hs
        have hleft : 0 < left := by
          rcases Nat.eq_zero_or_pos left with rfl | hpos
          · simp [VarLen.scan] at hs
          · exact hpos
        obtain ⟨f, hr⟩ := ih _ _ hf' hs hleft
        refine ⟨f, ?_⟩
        rw [readRemainingLength, Net.bind_ok hb,
          if_neg (fun hz => hge ((high_bit_clear_iff b).mp hz)), if_neg hleft.ne']
        exact hr

/-- A stream that ends inside its first packet leaves the call waiting for more. -/
theorem readPacket_incomplete_eq {t : Transport} {bs : Bytes} {tail : List RecvCall}
    (hf : t.Feeds bs tail) (hi : frame bs = .incomplete) :
    (∃ f, readPacket t = (recvByte >>= f) { t with recvs := tail }) ∨
      ∃ n, 0 < n ∧ ∃ f, readPacket t = (recvExact n >>= f) { t with recvs := tail } := by
  cases bs with
  | nil => exact .inl ⟨_, Net.bind_congr (recvByte_exhausted hf)⟩
  | cons b0 bs =>
    obtain ⟨recvs, hb, hf₁⟩ := recvByte_feeds hf
    rw [readPacket, Net.bind_ok hb]
    cases hs : VarLen.scan 128 UInt8.toNat 4 bs with
    | overlong r => simp [frame, hs] at hi
    | truncated =>
      obtain ⟨f, hr⟩ := readRemainingLength_truncated 0 1 hf₁ hs (by norm_num)
      exact .inl (Net.exists_bind hr)
    | done v r =>
      simp only [frame, hs] at hi
      split at hi
      · simp at hi
      · next hv =>
        have hlt : v < 128 ^ 4 := VarLen.scan_done_lt (by norm_num) hs
        have hfit : (0 : UInt32).toNat + (1 : UInt32).toNat * v < 2 ^ 32 := by
          simp only [UInt32.reduceToNat]
          omega
        obtain ⟨x, recvs', hr, hx, hf₂⟩ := readRemainingLength_done hf₁ hs (by decide) hfit
        obtain rfl : x.toNat = v := by simpa using hx
        have h0 : 0 < x := by
          rw [UInt32.lt_iff_toNat_lt]
          simp only [UInt32.reduceToNat]
          omega
        have hmissing : r.length < x.toNat := not_le.mp hv
        refine .inr ⟨x.toNat - r.length, by omega, ?_⟩
        rw [Net.bind_ok hr, if_pos h0]
        exact Net.exists_bind (recvExact_exhausted hf₂ hmissing)

/-- Where the stream ends there, the call gives no packet. -/
theorem readPacket_incomplete {t : Transport} {bs : Bytes} {tail : List RecvCall}
    (hf : t.Feeds bs tail) (h : Ends tail) (hi : frame bs = .incomplete) :
    Net.Fails readPacket t := by
  intro p t'
  obtain ⟨f, hread⟩ | ⟨n, hn, f, hread⟩ := readPacket_incomplete_eq hf hi
  · rw [hread]
    exact (recvByte_ends hf.running h).bind p t'
  · rw [hread]
    exact (recvExact_ends hf.running h hn).bind p t'

end MqttNativeSocket
