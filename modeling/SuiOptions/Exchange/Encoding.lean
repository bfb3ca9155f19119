import SuiOptions.Exchange.Codec
import SuiOptions.Exchange.FillBound

/-! The encodings of an order: which bytes are read, and what is hashed.

The framework reads the length of a vector from a few groups of seven bits and does
not ask that they be as few as possible, so an order has more encodings than the one
that is written. The digest is taken of the written one.
-/

set_option autoImplicit false

namespace SuiOptions.Exchange

open Execution Move

/-! ### Length prefixes -/

def textLength (text : String) : Nat := text.toByteArray.data.toList.length

/-- The length prefix at the head of the bytes ends in no zero group, the single group of an
empty vector apart. -/
def minimalFrom : Bool → Bytes → Bool
  | _, [] => true
  | alone, byte :: rest => if byte.toNat < 128 then alone || byte.toNat != 0 else minimalFrom false rest

def minimalLength (bytes : Bytes) : Bool := minimalFrom true bytes

/-- Both length prefixes of an order's bytes are minimal; the second stands behind the first string. -/
def Minimal (groups : Nat) (bytes : Bytes) : Prop :=
  minimalLength bytes = true ∧ ∀ text rest, peelVecU8In groups bytes = .ok (text, rest) → minimalLength rest = true

/-! ### Bytes that are read are the bytes that are written -/

theorem littleEndian_ofLittleEndian (bytes : Bytes) : littleEndian bytes.length (ofLittleEndian bytes) = bytes := by
  induction bytes with
  | nil => rfl
  | cons byte rest ih =>
    have small : byte.toNat < 256 := byte.toNat_lt
    have low : (byte.toNat + 256 * ofLittleEndian rest) % 256 = byte.toNat := by omega
    have high : (byte.toNat + 256 * ofLittleEndian rest) / 256 = ofLittleEndian rest := by omega
    simp only [List.length_cons, ofLittleEndian, littleEndian, low, high, ih, UInt8.ofNat_toNat]

theorem ofLittleEndian_lt (bytes : Bytes) : ofLittleEndian bytes < 256 ^ bytes.length := by
  induction bytes with
  | nil => exact Nat.one_pos
  | cons byte rest ih =>
    have small : byte.toNat < 256 := byte.toNat_lt
    rw [List.length_cons, Nat.pow_succ, ofLittleEndian]
    omega

theorem peel_ok {count : Nat} {bytes part rest : Bytes} (ran : peel count bytes = .ok (part, rest)) :
    bytes = part ++ rest ∧ part.length = count := by
  obtain ⟨enough, pair⟩ := check_pure_ok.mp ran
  obtain ⟨rfl, rfl⟩ := Prod.mk.inj pair
  exact ⟨(List.take_append_drop count bytes).symm, List.length_take_of_le enough⟩

theorem peelU64_ok {bytes rest : Bytes} {value : UInt64} (ran : peelU64 bytes = .ok (value, rest)) :
    bytes = u64Bytes value ++ rest := by
  obtain ⟨⟨word, _⟩, peeled, ran⟩ := bind_ok.mp ran
  cases pure_ok.mp ran
  obtain ⟨rfl, length⟩ := peel_ok peeled
  have fits : ofLittleEndian word < 2 ^ 64 := by
    have bound := ofLittleEndian_lt word
    rw [length] at bound
    exact lt_of_lt_of_eq bound (by decide)
  unfold u64Bytes
  rw [UInt64.toNat_ofNat', Nat.mod_eq_of_lt fits, ← length, littleEndian_ofLittleEndian]

theorem peelAddress_ok {bytes rest : Bytes} {address : Address} (ran : peelAddress bytes = .ok (address, rest)) :
    bytes = addressBytes address ++ rest := by
  obtain ⟨⟨word, _⟩, peeled, ran⟩ := bind_ok.mp ran
  cases pure_ok.mp ran
  obtain ⟨rfl, length⟩ := peel_ok peeled
  have reversed : word.reverse.length = 32 := by rw [List.length_reverse, length]
  have fits : ofLittleEndian word.reverse < 2 ^ 256 := by
    have bound := ofLittleEndian_lt word.reverse
    rw [reversed] at bound
    exact lt_of_lt_of_eq bound (by decide)
  unfold addressBytes ofBigEndian
  rw [BitVec.toNat_ofNat, Nat.mod_eq_of_lt fits, ← reversed, littleEndian_ofLittleEndian, List.reverse_reverse]

theorem utf8_ok {bytes : Bytes} {text : String} (ran : utf8 bytes = .ok text) :
    text.toByteArray.data.toList = bytes := by
  unfold utf8 String.fromUTF8? at ran
  split at ran
  · rename_i found
    cases ran
    split at found
    · cases found
      rfl
    · cases found
  · cases ran

/-! ### Length prefixes -/

theorem lengthGroups_of_small {more length : Nat} (small : length < 128) :
    lengthGroups (more + 1) length = [UInt8.ofNat length] := if_pos small

theorem lengthGroups_of_large {more length : Nat} (large : ¬ length < 128) :
    lengthGroups (more + 1) length = UInt8.ofNat (length % 128 + 128) :: lengthGroups more (length / 128) := if_neg large

theorem peelLengthGroups_of {room more shift length : Nat} {rest : Bytes} (some : 0 < room) (within : room ≤ more)
    (fits : length < 128 ^ room) :
    peelLengthGroups room shift (lengthGroups more length ++ rest) = .ok (length * 2 ^ shift, rest) := by
  induction room generalizing more shift length with
  | zero => cases some
  | succ room ih =>
    obtain ⟨more, rfl⟩ : ∃ fewer, more = fewer + 1 := ⟨more - 1, by omega⟩
    by_cases small : length < 128
    · have byte : (UInt8.ofNat length).toNat = length := by
        rw [UInt8.toNat_ofNat', Nat.mod_eq_of_lt (by omega)]
      rw [lengthGroups_of_small small]
      simp only [List.cons_append, List.nil_append, peelLengthGroups, byte, if_pos small, Nat.mod_eq_of_lt small]
    · have byte : (UInt8.ofNat (length % 128 + 128)).toNat = length % 128 + 128 := by
        rw [UInt8.toNat_ofNat', Nat.mod_eq_of_lt (by omega)]
      have high : ¬ length % 128 + 128 < 128 := by omega
      have low : (length % 128 + 128) % 128 = length % 128 := by omega
      have left : 0 < room := by
        rcases Nat.eq_zero_or_pos room with rfl | left
        · exact absurd fits small
        · exact left
      have deeper : length / 128 < 128 ^ room := Nat.div_lt_of_lt_mul (by rwa [Nat.pow_succ, Nat.mul_comm] at fits)
      rw [lengthGroups_of_large small]
      simp only [List.cons_append, peelLengthGroups, byte, if_neg high, low,
        ih left (Nat.le_of_succ_le_succ within) deeper, bind, Except.bind]
      have whole : length % 128 * 2 ^ shift + length / 128 * 2 ^ (shift + 7) = length * 2 ^ shift := by
        rw [Nat.pow_add]
        calc length % 128 * 2 ^ shift + length / 128 * (2 ^ shift * 2 ^ 7)
            = (length % 128 + 128 * (length / 128)) * 2 ^ shift := by ring
          _ = length * 2 ^ shift := by rw [Nat.mod_add_div]
      rw [whole]
      rfl

/-- A length prefix that is read is the written one exactly when it is minimal. -/
theorem peelLengthGroups_minimal {room more shift read : Nat} {bytes rest : Bytes} (within : room ≤ more)
    (ran : peelLengthGroups room shift bytes = .ok (read, rest)) :
    ∃ length, read = length * 2 ^ shift ∧ length < 128 ^ room ∧
      (bytes = lengthGroups more length ++ rest ↔ minimalFrom true bytes = true) ∧
      (minimalFrom false bytes = true ↔ minimalFrom true bytes = true ∧ 0 < length) := by
  induction room generalizing more shift bytes read with
  | zero => cases ran
  | succ room ih =>
    obtain ⟨more, rfl⟩ : ∃ fewer, more = fewer + 1 := ⟨more - 1, by omega⟩
    cases bytes with
    | nil => cases ran
    | cons byte tail =>
      by_cases last : byte.toNat < 128
      · simp only [peelLengthGroups, if_pos last, Nat.mod_eq_of_lt last, Except.ok.injEq, Prod.mk.injEq] at ran
        obtain ⟨rfl, rfl⟩ := ran
        have power : 128 ≤ 128 ^ (room + 1) := by
          rw [Nat.pow_succ]
          exact Nat.le_mul_of_pos_left _ (Nat.pow_pos (by decide))
        refine ⟨byte.toNat, rfl, by omega, ?_, ?_⟩
        · rw [lengthGroups_of_small last, UInt8.ofNat_toNat]
          simp [minimalFrom, last]
        · simp [minimalFrom, last, Nat.pos_iff_ne_zero]
      · simp only [peelLengthGroups, if_neg last] at ran
        obtain ⟨⟨high, left⟩, deeper, ran⟩ := bind_ok.mp ran
        obtain ⟨rfl, rfl⟩ := Prod.mk.inj (pure_ok.mp ran)
        obtain ⟨length, rfl, fits, same, positive⟩ := ih (Nat.le_of_succ_le_succ within) deeper
        have small : byte.toNat < 256 := byte.toNat_lt
        have value : byte.toNat % 128 * 2 ^ shift + length * 2 ^ (shift + 7) = (byte.toNat % 128 + 128 * length) * 2 ^ shift := by
          rw [Nat.pow_add]
          ring
        have whole : byte.toNat % 128 + 128 * length < 128 ^ (room + 1) := by
          rw [Nat.pow_succ]
          omega
        have minimal : ∀ alone, minimalFrom alone (byte :: tail) = minimalFrom false tail := by
          intro alone
          rw [minimalFrom, if_neg last]
        refine ⟨byte.toNat % 128 + 128 * length, value, whole, ?_, ?_⟩
        · rw [minimal, positive, ← same]
          rcases Nat.eq_zero_or_pos length with rfl | some
          · -- a length below 128 is written in one group
            have one : byte.toNat % 128 + 128 * 0 < 128 := by omega
            have differs : byte ≠ UInt8.ofNat (byte.toNat % 128 + 128 * 0) := by
              intro equal
              have numbers := congrArg UInt8.toNat equal
              rw [UInt8.toNat_ofNat', Nat.mod_eq_of_lt (by omega)] at numbers
              omega
            rw [lengthGroups_of_small one]
            constructor
            · intro equal
              exact absurd (List.cons.inj equal).1 differs
            · rintro ⟨-, impossible⟩
              cases impossible
          · have large : ¬ byte.toNat % 128 + 128 * length < 128 := by omega
            have low : (byte.toNat % 128 + 128 * length) % 128 + 128 = byte.toNat := by omega
            have rest : (byte.toNat % 128 + 128 * length) / 128 = length := by omega
            rw [lengthGroups_of_large large, low, rest, UInt8.ofNat_toNat, List.cons_append, List.cons.injEq]
            simp [some]
        · rw [minimal, minimal, positive]
          constructor
          · rintro ⟨tail, some⟩
            exact ⟨⟨tail, some⟩, by omega⟩
          · exact And.left

/-! ### Strings -/

theorem peelVecU8In_of {groups : Nat} {text rest : Bytes} (some : 0 < groups) (within : groups ≤ 10)
    (fits : text.length < 128 ^ groups) : peelVecU8In groups (vecBytes text ++ rest) = .ok (text, rest) := by
  unfold peelVecU8In vecBytes
  rw [List.append_assoc, peelLengthGroups_of some within fits]
  simp only [bind, Except.bind, Nat.pow_zero, Nat.mul_one]
  exact peel_append text rest

/-- A string that is read has the written prefix exactly when its prefix is minimal. -/
theorem peelVecU8In_minimal {groups : Nat} {bytes text rest : Bytes} (within : groups ≤ 10)
    (ran : peelVecU8In groups bytes = .ok (text, rest)) :
    text.length < 128 ^ groups ∧ (bytes = vecBytes text ++ rest ↔ minimalLength bytes = true) := by
  obtain ⟨⟨length, body⟩, prefixed, ran⟩ := bind_ok.mp ran
  obtain ⟨length, rfl, fits, same, -⟩ := peelLengthGroups_minimal within prefixed
  obtain ⟨rfl, whole⟩ := peel_ok ran
  simp only [Nat.pow_zero, Nat.mul_one] at whole
  unfold vecBytes minimalLength
  rw [whole, List.append_assoc]
  exact ⟨fits, same⟩

/-! ### Orders -/

def Order.tailBytes (order : Order) : Bytes :=
  u64Bytes order.makerAmount ++ (u64Bytes order.takerAmount ++ (u64Bytes order.maxFeeBps ++ (addressBytes order.maker ++
    (addressBytes order.makerManagerId ++ (addressBytes order.taker ++ (addressBytes order.sender ++
      (u64Bytes order.expiryMs ++ u64Bytes order.salt)))))))

theorem Order.toBytes_eq (order : Order) :
    order.toBytes = stringBytes order.makerToken ++ (stringBytes order.takerToken ++ order.tailBytes) := by
  simp only [toBytes, tailBytes, List.append_assoc]

theorem peelU64_last (value : UInt64) : peelU64 (u64Bytes value) = .ok (value, []) := by
  have ended := peelU64_append value []
  rwa [List.append_nil] at ended

section Codec

variable {groups : Nat} {bytes : Bytes} {order : Order}

theorem fromBytesIn_of (some : 0 < groups) (within : groups ≤ 10) (maker : textLength order.makerToken < 128 ^ groups)
    (taker : textLength order.takerToken < 128 ^ groups) : fromBytesIn groups order.toBytes = .ok order := by
  rw [Order.toBytes_eq]
  unfold fromBytesIn stringBytes Order.tailBytes
  simp only [peelVecU8In_of some within maker, peelVecU8In_of some within taker, utf8_bytes, peelU64_append,
    peelAddress_append, peelU64_last, bind, Except.bind, pure, Except.pure]
  rfl

theorem fromBytesIn_ok (ran : fromBytesIn groups bytes = .ok order) :
    ∃ rest, peelVecU8In groups bytes = .ok (order.makerToken.toByteArray.data.toList, rest) ∧
      peelVecU8In groups rest = .ok (order.takerToken.toByteArray.data.toList, order.tailBytes) := by
  unfold fromBytesIn at ran
  obtain ⟨⟨makerBytes, rest⟩, first, ran⟩ := bind_ok.mp ran
  obtain ⟨makerToken, makerText, ran⟩ := bind_ok.mp ran
  obtain ⟨⟨takerBytes, behind⟩, second, ran⟩ := bind_ok.mp ran
  obtain ⟨takerToken, takerText, ran⟩ := bind_ok.mp ran
  rw [← utf8_ok makerText] at first
  rw [← utf8_ok takerText] at second
  obtain ⟨⟨makerAmount, _⟩, makerAmountRead, ran⟩ := bind_ok.mp ran
  obtain ⟨⟨takerAmount, _⟩, takerAmountRead, ran⟩ := bind_ok.mp ran
  obtain ⟨⟨maxFeeBps, _⟩, maxFeeBpsRead, ran⟩ := bind_ok.mp ran
  obtain ⟨⟨maker, _⟩, makerRead, ran⟩ := bind_ok.mp ran
  obtain ⟨⟨makerManagerId, _⟩, makerManagerIdRead, ran⟩ := bind_ok.mp ran
  obtain ⟨⟨taker, _⟩, takerRead, ran⟩ := bind_ok.mp ran
  obtain ⟨⟨sender, _⟩, senderRead, ran⟩ := bind_ok.mp ran
  obtain ⟨⟨expiryMs, _⟩, expiryMsRead, ran⟩ := bind_ok.mp ran
  obtain ⟨⟨salt, _⟩, saltRead, ran⟩ := bind_ok.mp ran
  rw [peelU64_ok makerAmountRead, peelU64_ok takerAmountRead, peelU64_ok maxFeeBpsRead, peelAddress_ok makerRead, peelAddress_ok makerManagerIdRead, peelAddress_ok takerRead, peelAddress_ok senderRead, peelU64_ok expiryMsRead, peelU64_ok saltRead] at second
  obtain ⟨empty, rfl⟩ := check_pure_ok.mp ran
  cases empty
  rw [List.append_nil] at second
  exact ⟨rest, first, second⟩

theorem fromBytesIn_minimal (within : groups ≤ 10) (ran : fromBytesIn groups bytes = .ok order) :
    bytes = order.toBytes ↔ Minimal groups bytes := by
  obtain ⟨rest, first, second⟩ := fromBytesIn_ok ran
  obtain ⟨-, makerSame⟩ := peelVecU8In_minimal within first
  obtain ⟨-, takerSame⟩ := peelVecU8In_minimal within second
  have later : Minimal groups bytes ↔ minimalLength bytes = true ∧ minimalLength rest = true := by
    apply and_congr_right
    intro _
    constructor
    · exact fun all => all _ _ first
    · intro here text other peeled
      cases first.symm.trans peeled
      exact here
  rw [later, ← makerSame, ← takerSame, Order.toBytes_eq]
  constructor
  · rintro rfl
    obtain ⟨-, rfl⟩ := peelVecU8In_append within first
    exact ⟨rfl, rfl⟩
  · rintro ⟨here, behind⟩
    rw [here, behind]
    rfl

end Codec

/-- Both strings are shorter than the groups can count. -/
def Order.Short (groups : Nat) (order : Order) : Prop :=
  textLength order.makerToken < 128 ^ groups ∧ textLength order.takerToken < 128 ^ groups

theorem fromBytesIn_toBytes_iff {groups : Nat} {order : Order} (some : 0 < groups) (within : groups ≤ 10) :
    fromBytesIn groups order.toBytes = .ok order ↔ order.Short groups := by
  constructor
  · intro ran
    obtain ⟨rest, first, second⟩ := fromBytesIn_ok ran
    exact ⟨(peelVecU8In_minimal within first).1, (peelVecU8In_minimal within second).1⟩
  · exact fun short => fromBytesIn_of some within short.1 short.2

theorem Order.toBytes_inj {first second : Order} (short : first.Short 10) (other : second.Short 10)
    (same : first.toBytes = second.toBytes) : first = second := by
  have read := (fromBytesIn_toBytes_iff (by decide) le_rfl).mpr short
  rw [same, (fromBytesIn_toBytes_iff (by decide) le_rfl).mpr other] at read
  exact (Except.ok.inj read).symm

/-! ### The digest -/

theorem length_addressBytes (address : Address) : (addressBytes address).length = 32 := by
  rw [addressBytes, List.length_reverse, length_littleEndian]

theorem addressBytes_inj {first second : Address} (same : addressBytes first = addressBytes second) : first = second := by
  have read := peelAddress_append first []
  rw [same, peelAddress_append] at read
  exact (Prod.mk.inj (Except.ok.inj read)).1.symm

/-- The preimage has no length of its own, but the fields before the strings have a fixed one. -/
theorem digestPreimage_inj {first second : Order} {registryId other : ID} (short : first.Short 10) (brief : second.Short 10)
    (same : digestPreimage first registryId = digestPreimage second other) : first = second ∧ registryId = other := by
  unfold digestPreimage at same
  rw [List.append_assoc, List.append_assoc _ (addressBytes other), List.append_right_inj] at same
  obtain ⟨ids, bodies⟩ := List.append_inj same (by rw [length_addressBytes, length_addressBytes])
  exact ⟨Order.toBytes_inj short brief bodies, addressBytes_inj ids⟩

/-! ### The mirror off chain: `exchange-types` and `exchange-signing` -/

namespace Signing

/-- `SuiAddress`, and `ObjectId`: an array of 32 bytes. -/
structure SuiAddress where
  bytes : Bytes
  length : bytes.length = 32

structure Order where
  makerToken : String
  takerToken : String
  makerAmount : UInt64
  takerAmount : UInt64
  maxFeeBps : UInt64
  maker : SuiAddress
  makerManagerId : SuiAddress
  taker : SuiAddress
  sender : SuiAddress
  expiryMs : UInt64
  salt : UInt64

def domainTag : Bytes := "SUI_HYBRID_EXCHANGE_ORDER".toByteArray.data.toList

def domainVersion : UInt8 := 1

/-- `bcs` writes no sequence longer than this. -/
def maxSequenceLength : Nat := 2 ^ 31 - 1

/-- A string in BCS: the length is a number of 32 bits, so in five bytes at most. -/
def serializeStr (text : String) : Option Bytes :=
  let bytes := text.toByteArray.data.toList
  if bytes.length ≤ maxSequenceLength then some (lengthGroups 5 bytes.length ++ bytes) else none

/-- `to_bcs`; it panics where a string is too long. -/
def Order.toBcs (order : Order) : Option Bytes := do
  let makerToken ← serializeStr order.makerToken
  let takerToken ← serializeStr order.takerToken
  some (makerToken ++ takerToken ++ littleEndian 8 order.makerAmount.toNat ++ littleEndian 8 order.takerAmount.toNat ++
    littleEndian 8 order.maxFeeBps.toNat ++ order.maker.bytes ++ order.makerManagerId.bytes ++ order.taker.bytes ++
    order.sender.bytes ++ littleEndian 8 order.expiryMs.toNat ++ littleEndian 8 order.salt.toNat)

/-- What `order_digest` hashes. -/
def Order.digestPreimage (order : Order) (registryId : SuiAddress) : Option Bytes := do
  let body ← order.toBcs
  some (domainTag ++ [domainVersion] ++ registryId.bytes ++ body)

def SuiAddress.onChain (address : SuiAddress) : Address := BitVec.ofNat 256 (ofBigEndian address.bytes)

def Order.onChain (order : Order) : Exchange.Order :=
  { makerToken := order.makerToken
    takerToken := order.takerToken
    makerAmount := order.makerAmount
    takerAmount := order.takerAmount
    maxFeeBps := order.maxFeeBps
    maker := order.maker.onChain
    makerManagerId := order.makerManagerId.onChain
    taker := order.taker.onChain
    sender := order.sender.onChain
    expiryMs := order.expiryMs
    salt := order.salt }

theorem addressBytes_onChain (address : SuiAddress) : addressBytes address.onChain = address.bytes := by
  have reversed : address.bytes.reverse.length = 32 := by rw [List.length_reverse, address.length]
  have fits : ofLittleEndian address.bytes.reverse < 2 ^ 256 := by
    have bound := ofLittleEndian_lt address.bytes.reverse
    rw [reversed] at bound
    exact lt_of_lt_of_eq bound (by decide)
  unfold addressBytes SuiAddress.onChain ofBigEndian
  rw [BitVec.toNat_ofNat, Nat.mod_eq_of_lt fits, ← reversed, littleEndian_ofLittleEndian, List.reverse_reverse]

theorem lengthGroups_more {room more length : Nat} (some : 0 < room) (within : room ≤ more) (fits : length < 128 ^ room) :
    lengthGroups room length = lengthGroups more length := by
  induction room generalizing more length with
  | zero => cases some
  | succ room ih =>
    obtain ⟨more, rfl⟩ : ∃ fewer, more = fewer + 1 := ⟨more - 1, by omega⟩
    by_cases small : length < 128
    · rw [lengthGroups_of_small small, lengthGroups_of_small small]
    · have left : 0 < room := by
        rcases Nat.eq_zero_or_pos room with rfl | left
        · exact absurd fits small
        · exact left
      have deeper : length / 128 < 128 ^ room := Nat.div_lt_of_lt_mul (by rwa [Nat.pow_succ, Nat.mul_comm] at fits)
      rw [lengthGroups_of_large small, lengthGroups_of_large small, ih left (Nat.le_of_succ_le_succ within) deeper]

theorem serializeStr_eq (text : String) :
    serializeStr text = if textLength text ≤ maxSequenceLength then some (stringBytes text) else none := by
  unfold serializeStr textLength
  by_cases fits : text.toByteArray.data.toList.length ≤ maxSequenceLength
  · have small : text.toByteArray.data.toList.length < 128 ^ 5 := lt_of_le_of_lt fits (by decide)
    have groups : lengthGroups 5 text.toByteArray.data.toList.length = lengthGroups 10 text.toByteArray.data.toList.length :=
      lengthGroups_more (by decide) (by decide) small
    simp only [if_pos fits, groups, stringBytes, vecBytes]
  · simp only [if_neg fits]

/-- Where `to_bcs` does not panic, the mirror hashes what the contract hashes. -/
theorem Order.digestPreimage_eq (order : Order) (registryId : SuiAddress) : order.digestPreimage registryId =
    if textLength order.makerToken ≤ maxSequenceLength ∧ textLength order.takerToken ≤ maxSequenceLength then
      some (Exchange.digestPreimage order.onChain registryId.onChain) else none := by
  unfold Order.digestPreimage Order.toBcs Exchange.digestPreimage Exchange.Order.toBytes
  rw [serializeStr_eq, serializeStr_eq]
  by_cases maker : textLength order.makerToken ≤ maxSequenceLength
  · by_cases taker : textLength order.takerToken ≤ maxSequenceLength
    · simp only [if_pos maker, if_pos taker, if_pos (And.intro maker taker), bind, Option.bind, Order.onChain,
        addressBytes_onChain, u64Bytes]
      rfl
    · simp only [if_pos maker, if_neg taker, if_neg (fun both => taker (And.right both)), bind, Option.bind]
  · simp only [if_neg maker, if_neg (fun both => maker (And.left both)), bind, Option.bind]

end Signing

/-! ### The codec -/

/-- With at most `groups` bytes of length for each string: an order is read back from its own bytes
exactly when its strings are short enough, an accepted encoding is the order's own exactly when its length
prefixes are minimal, and both implementations hash the same bytes, different ones for different orders. -/
theorem order_codec {groups : Nat} (some : 0 < groups) (within : groups ≤ 10) :
    (∀ order : Order, fromBytesIn groups order.toBytes = .ok order ↔ order.Short groups) ∧
    (∀ bytes order, fromBytesIn groups bytes = .ok order → (bytes = order.toBytes ↔ Minimal groups bytes)) ∧
    (∀ first second registryId other, first.Short 10 → second.Short 10 →
      digestPreimage first registryId = digestPreimage second other → first = second ∧ registryId = other) ∧
    ∀ (order : Signing.Order) (registryId : Signing.SuiAddress), order.digestPreimage registryId =
      if textLength order.makerToken ≤ Signing.maxSequenceLength ∧ textLength order.takerToken ≤ Signing.maxSequenceLength then
        Option.some (digestPreimage order.onChain registryId.onChain) else none := by
  refine ⟨?_, ?_, ?_, ?_⟩
  · exact fun order => fromBytesIn_toBytes_iff some within
  · exact fun bytes order ran => fromBytesIn_minimal within ran
  · exact fun first second registryId other short brief same => digestPreimage_inj short brief same
  · exact fun order registryId => order.digestPreimage_eq registryId

namespace Vector

/-- The bytes of the signed order with one byte more for the length of the first string. -/
def padded : Bytes :=
  UInt8.ofNat (textLength order.makerToken + 128) :: 0 :: order.toBytes.tail

/-- The framework accepts the padded prefix, with four bytes of length as with five. -/
theorem second_encoding : fromBytesIn 4 padded = .ok order ∧ fromBytes padded = .ok order ∧ padded ≠ order.toBytes := by
  decide +kernel

theorem order_codec_vector : fromBytesIn 4 order.toBytes = .ok order ∧ ¬ Minimal 4 padded := by
  obtain ⟨reads, canonical, -⟩ := @order_codec 4 (by decide) (by decide)
  have short : order.Short 4 := by
    unfold Order.Short
    decide +kernel
  have accepted : fromBytesIn 4 padded = .ok order := by decide +kernel
  have differs : padded ≠ order.toBytes := by decide +kernel
  exact ⟨(reads order).mpr short, fun minimal => differs ((canonical padded order accepted).mpr minimal)⟩

end Vector

end SuiOptions.Exchange
