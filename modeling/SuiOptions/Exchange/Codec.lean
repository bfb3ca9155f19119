import SuiOptions.Exchange.Order

/-! Reading an order back from its own bytes.

What `fromBytes` decodes from the bytes of `toBytes` is the order that was encoded.
A token name too long for the five bytes of length that are read is refused.
-/

set_option autoImplicit false

namespace SuiOptions.Exchange

open Execution Move

@[simp] theorem length_littleEndian (count value : Nat) : (littleEndian count value).length = count := by
  induction count generalizing value with
  | zero => rfl
  | succ count ih => simp only [littleEndian, List.length_cons, ih]

theorem ofLittleEndian_littleEndian {count value : Nat} (fits : value < 256 ^ count) :
    ofLittleEndian (littleEndian count value) = value := by
  induction count generalizing value with
  | zero =>
    rw [Nat.pow_zero] at fits
    simp only [littleEndian, ofLittleEndian]
    omega
  | succ count ih =>
    have rest : value / 256 < 256 ^ count := by
      rw [Nat.pow_succ] at fits
      exact Nat.div_lt_of_lt_mul (by omega)
    have low : (UInt8.ofNat (value % 256)).toNat = value % 256 := by
      rw [UInt8.toNat_ofNat', Nat.mod_eq_of_lt (by omega)]
    simp only [littleEndian, ofLittleEndian, ih rest, low]
    omega

theorem peel_append (part rest : Bytes) : peel part.length (part ++ rest) = .ok (part, rest) := by
  unfold peel
  rw [check_of (by rw [List.length_append]; omega)]
  simp [bind, Except.bind, pure, Except.pure]

theorem peel_append_of_eq {count : Nat} {part rest : Bytes} (whole : count = part.length) :
    peel count (part ++ rest) = .ok (part, rest) := by
  rw [whole]
  exact peel_append part rest

theorem peelU64_append (value : UInt64) (rest : Bytes) : peelU64 (u64Bytes value ++ rest) = .ok (value, rest) := by
  have fits : value.toNat < 256 ^ 8 := lt_of_lt_of_eq value.toNat_lt (by decide)
  unfold peelU64 u64Bytes
  rw [peel_append_of_eq (length_littleEndian 8 value.toNat).symm]
  simp only [bind, Except.bind, ofLittleEndian_littleEndian fits, UInt64.ofNat_toNat]
  rfl

theorem peelAddress_append (address : Address) (rest : Bytes) :
    peelAddress (addressBytes address ++ rest) = .ok (address, rest) := by
  have fits : address.toNat < 256 ^ 32 := lt_of_lt_of_eq address.isLt (by decide)
  have length : (32 : Nat) = (addressBytes address).length := by
    rw [addressBytes, List.length_reverse, length_littleEndian]
  unfold peelAddress
  rw [peel_append_of_eq length]
  simp only [bind, Except.bind, addressBytes, ofBigEndian, List.reverse_reverse, ofLittleEndian_littleEndian fits,
    BitVec.ofNat_toNat, BitVec.setWidth_eq]
  rfl

/-- The groups that are read are those that were written, unless they are too many. -/
theorem peelLengthGroups_append {room more shift length : Nat} {rest left : Bytes} {read : Nat} (within : room ≤ more)
    (ran : peelLengthGroups room shift (lengthGroups more length ++ rest) = .ok (read, left)) :
    read = length * 2 ^ shift ∧ left = rest := by
  induction room generalizing more shift length read with
  | zero => cases ran
  | succ room ih =>
    obtain ⟨more, rfl⟩ : ∃ fewer, more = fewer + 1 := ⟨more - 1, by omega⟩
    by_cases small : length < 128
    · have byte : (UInt8.ofNat length).toNat = length := by
        rw [UInt8.toNat_ofNat', Nat.mod_eq_of_lt (by omega)]
      simp only [lengthGroups, if_pos small, List.cons_append, List.nil_append, peelLengthGroups, byte] at ran
      cases ran
      rw [Nat.mod_eq_of_lt small]
      exact ⟨rfl, rfl⟩
    · have byte : (UInt8.ofNat (length % 128 + 128)).toNat = length % 128 + 128 := by
        rw [UInt8.toNat_ofNat', Nat.mod_eq_of_lt (by omega)]
      simp only [lengthGroups, if_neg small, List.cons_append, peelLengthGroups, byte] at ran
      rw [if_neg (by omega)] at ran
      obtain ⟨⟨high, _⟩, deeper, ran⟩ := bind_ok.mp ran
      cases pure_ok.mp ran
      obtain ⟨rfl, rfl⟩ := ih (by omega) deeper
      refine ⟨?_, rfl⟩
      have low : (length % 128 + 128) % 128 = length % 128 := by omega
      rw [low, Nat.pow_add]
      calc length % 128 * 2 ^ shift + length / 128 * (2 ^ shift * 2 ^ 7)
          = (length % 128 + 128 * (length / 128)) * 2 ^ shift := by ring
        _ = length * 2 ^ shift := by rw [Nat.mod_add_div]

theorem peelVecU8In_append {groups : Nat} {text rest read left : Bytes} (within : groups ≤ 10)
    (ran : peelVecU8In groups (vecBytes text ++ rest) = .ok (read, left)) : read = text ∧ left = rest := by
  unfold peelVecU8In vecBytes at ran
  rw [List.append_assoc] at ran
  obtain ⟨⟨length, body⟩, prefixed, ran⟩ := bind_ok.mp ran
  obtain ⟨rfl, rfl⟩ := peelLengthGroups_append within prefixed
  simp only [Nat.pow_zero, Nat.mul_one, peel_append] at ran
  cases ran
  exact ⟨rfl, rfl⟩

theorem utf8_bytes (text : String) : utf8 text.toByteArray.data.toList = .ok text := by
  unfold utf8 String.fromUTF8?
  simp only [Array.toArray_toList]
  rw [dif_pos]
  · rfl
  · exact text.isValidUTF8

theorem peelString_append {text read : String} {bytes rest left : Bytes}
    (ran : peelVecU8In 5 (stringBytes text ++ rest) = .ok (bytes, left)) (decoded : utf8 bytes = .ok read) :
    read = text ∧ left = rest := by
  obtain ⟨rfl, rfl⟩ := peelVecU8In_append (by decide) ran
  rw [utf8_bytes] at decoded
  cases decoded
  exact ⟨rfl, rfl⟩

theorem Order.eq_of_fromBytes {order decoded : Order} (ran : fromBytes order.toBytes = .ok decoded) : decoded = order := by
  unfold fromBytes fromBytesIn Order.toBytes at ran
  simp only [List.append_assoc] at ran
  obtain ⟨⟨makerBytes, _⟩, first, ran⟩ := bind_ok.mp ran
  obtain ⟨makerToken, text, ran⟩ := bind_ok.mp ran
  obtain ⟨rfl, rfl⟩ := peelString_append first text
  obtain ⟨⟨takerBytes, _⟩, second, ran⟩ := bind_ok.mp ran
  obtain ⟨takerToken, other, ran⟩ := bind_ok.mp ran
  obtain ⟨rfl, rfl⟩ := peelString_append second other
  have last : peelU64 (u64Bytes order.salt) = .ok (order.salt, []) := by
    have ended := peelU64_append order.salt []
    rwa [List.append_nil] at ended
  simp only [peelU64_append, peelAddress_append, last, bind, Except.bind, pure, Except.pure] at ran
  cases ran
  rfl

end SuiOptions.Exchange
