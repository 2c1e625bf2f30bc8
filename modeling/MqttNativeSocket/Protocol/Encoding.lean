import MqttNativeSocket.Protocol.Packet

/-! # Wire encoding

The remaining-length encoder emits the marked base-128 digits of its argument,
and the 16-bit helpers are inverse to the big-endian reader. A body framed by
the fixed header starts with its type byte and the digits of its length modulo
`2 ^ 32`.
-/

namespace MqttNativeSocket

theorem shiftRight_seven (v : UInt32) : (v >>> (7 : UInt32)).toNat = v.toNat / 128 := by
  simp [UInt32.toNat_shiftRight, Nat.shiftRight_eq_div_pow]

theorem low_seven (v : UInt32) : (v &&& 0x7F).toUInt8.toNat = v.toNat % 128 := by
  have h : v.toNat &&& 127 = v.toNat % 128 := Nat.and_two_pow_sub_one_eq_mod _ 7
  simp only [UInt32.toNat_toUInt8, UInt32.toNat_and, UInt32.reduceToNat, h]
  omega

theorem mark_byte {b : UInt8} (h : b.toNat < 128) : (b ||| 0x80).toNat = b.toNat + 128 := by
  have hp : 128 + b.toNat = 128 ||| b.toNat := Nat.two_pow_add_eq_or_of_lt (i := 7) h 1
  simp only [UInt8.toNat_or, UInt8.reduceToNat]
  rw [Nat.or_comm, ← hp, Nat.add_comm]

/-- The encoder appends the marked base-128 digits of the value. -/
theorem appendVarLen_eq (buf : Bytes) (v : UInt32) :
    ∃ gs : Bytes, appendVarLen buf v = buf ++ gs ∧
      gs.map UInt8.toNat = VarLen.groups 128 v.toNat := by
  induction buf, v using appendVarLen.induct with
  | case1 buf v b rest hr ih =>
    obtain ⟨gs, he, hg⟩ := ih
    have hv : 128 ≤ v.toNat := by
      rw [UInt32.lt_iff_toNat_lt, shiftRight_seven] at hr
      simp only [UInt32.reduceToNat] at hr
      omega
    refine ⟨(b ||| 0x80) :: gs, ?_, ?_⟩
    · rw [appendVarLen, if_pos hr, he, List.append_assoc, List.singleton_append]
    · rw [VarLen.groups_of_le (by norm_num) hv, List.map_cons, hg, shiftRight_seven,
        mark_byte (by rw [low_seven]; omega), low_seven]
  | case2 buf v rest hr =>
    have hv : v.toNat < 128 := by
      rw [UInt32.lt_iff_toNat_lt, shiftRight_seven] at hr
      simp only [UInt32.reduceToNat] at hr
      omega
    refine ⟨[(v &&& 0x7F).toUInt8], ?_, ?_⟩
    · rw [appendVarLen, if_neg hr]
    · rw [VarLen.groups_of_lt hv, List.map_singleton, low_seven, Nat.mod_eq_of_lt hv]

/-- The bytes of a remaining-length field. -/
def varLen (v : UInt32) : Bytes := appendVarLen [] v

theorem map_varLen (v : UInt32) : (varLen v).map UInt8.toNat = VarLen.groups 128 v.toNat := by
  obtain ⟨gs, he, hg⟩ := appendVarLen_eq [] v
  rw [varLen, he, List.nil_append, hg]

theorem appendVarLen_append (buf : Bytes) (v : UInt32) :
    appendVarLen buf v = buf ++ varLen v := by
  obtain ⟨gs, he, hg⟩ := appendVarLen_eq buf v
  rw [he]
  congr 1
  exact (List.map_injective_iff.mpr fun _ _ => UInt8.toNat_inj.mp)
    (hg.trans (map_varLen v).symm)

theorem length_varLen_le_four_iff (v : UInt32) : (varLen v).length ≤ 4 ↔ v.toNat < 2 ^ 28 := by
  have h := VarLen.length_groups_le_iff (b := 128) (by norm_num) (k := 4) (by norm_num) v.toNat
  rw [← map_varLen, List.length_map] at h
  simpa using h

theorem length_varLen_le (v : UInt32) : (varLen v).length ≤ 5 := by
  have h := VarLen.length_groups_le_iff (b := 128) (by norm_num) (k := 5) (by norm_num) v.toNat
  rw [← map_varLen, List.length_map] at h
  exact h.mpr (lt_trans v.toNat_lt (by norm_num))

theorem prependFixedHeader_eq (body : Bytes) (typeByte : UInt8) :
    prependFixedHeader body typeByte =
      typeByte :: (varLen (UInt32.ofNat body.length) ++ body) := by
  rw [prependFixedHeader, appendVarLen_append, List.append_assoc, List.singleton_append]

/-- The two bytes of a big-endian 16-bit field. -/
def u16Bytes (v : UInt16) : Bytes := [(v >>> 8).toUInt8, (v &&& 0xFF).toUInt8]

@[simp] theorem length_u16Bytes (v : UInt16) : (u16Bytes v).length = 2 := rfl

theorem appendU16_eq (buf : Bytes) (v : UInt16) : appendU16 buf v = buf ++ u16Bytes v := rfl

theorem appendMqttString_eq (buf s : Bytes) :
    appendMqttString buf s = buf ++ (u16Bytes (UInt16.ofNat s.length) ++ s) := by
  rw [appendMqttString, appendU16_eq, List.append_assoc]

theorem toNat_join (hi lo : UInt8) :
    ((hi.toUInt16 <<< 8) ||| lo.toUInt16).toNat = hi.toNat * 256 + lo.toNat := by
  have hp := Nat.two_pow_add_eq_or_of_lt (i := 8) lo.toNat_lt hi.toNat
  have hs : hi.toNat <<< 8 % 2 ^ 16 = 2 ^ 8 * hi.toNat := by
    have := hi.toNat_lt
    rw [Nat.shiftLeft_eq]; omega
  simp only [UInt16.toNat_or, UInt16.toNat_shiftLeft, UInt8.toNat_toUInt16, UInt16.reduceToNat,
    Nat.reduceMod, hs, ← hp]
  omega

theorem join_split (v : UInt16) :
    ((v >>> 8).toUInt8.toUInt16 <<< 8) ||| (v &&& 0xFF).toUInt8.toUInt16 = v := by
  have hl : v.toNat &&& 255 = v.toNat % 256 := Nat.and_two_pow_sub_one_eq_mod _ 8
  have hv := v.toNat_lt
  apply UInt16.toNat_inj.mp
  rw [toNat_join]
  simp only [UInt16.toNat_toUInt8, UInt16.toNat_shiftRight, UInt16.toNat_and, UInt16.reduceToNat,
    Nat.reduceMod, Nat.shiftRight_eq_div_pow, hl]
  omega

theorem split_join (hi lo : UInt8) : u16Bytes ((hi.toUInt16 <<< 8) ||| lo.toUInt16) = [hi, lo] := by
  have hl := lo.toNat_lt
  have hh := hi.toNat_lt
  have hm : (hi.toNat * 256 + lo.toNat) &&& 255 = (hi.toNat * 256 + lo.toNat) % 256 :=
    Nat.and_two_pow_sub_one_eq_mod _ 8
  simp only [u16Bytes, List.cons.injEq, and_true, ← UInt8.toNat_inj, UInt16.toNat_toUInt8,
    UInt16.toNat_shiftRight, UInt16.toNat_and, toNat_join, UInt16.reduceToNat, Nat.reduceMod,
    Nat.shiftRight_eq_div_pow, hm]
  omega

theorem u16Bytes_injective : Function.Injective u16Bytes := by
  intro v w h
  simp only [u16Bytes, List.cons.injEq, and_true] at h
  rw [← join_split v, ← join_split w, h.1, h.2]

/-- The two bytes at a position, written back. -/
theorem drop_eq_u16Bytes (body : Bytes) (pos : ℕ) (h : pos + 1 < body.length) :
    body.drop pos = u16Bytes (u16At body pos h) ++ body.drop (pos + 2) := by
  rw [u16At, split_join, List.drop_eq_getElem_cons (by omega), List.drop_eq_getElem_cons h]
  rfl

/-- Reading a 16-bit field that stands at a position. -/
theorem u16At_of_drop {body post : Bytes} {pos : ℕ} {v : UInt16}
    (h : pos + 1 < body.length) (hd : body.drop pos = u16Bytes v ++ post) :
    u16At body pos h = v := by
  rw [drop_eq_u16Bytes body pos h] at hd
  exact u16Bytes_injective (List.append_inj_left hd rfl)

end MqttNativeSocket
