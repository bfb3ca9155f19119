import SuiOptions.Move.Runtime
import SuiOptions.Move.Types

/-! Canonical strikes and the coin types that spell a bucket's terms: `option_coin.move`.

Every bucket has a coin type of its own, an instance of one generic root per side.
Its last ten type arguments are markers, one for each byte of the expiry in minutes
(four bytes), the significand of the strike (five) and its exponent (one).
-/

set_option autoImplicit false

namespace SuiOptions.Core

open Execution Move

/-- The abort codes of bucket creation and of what it calls in the framework. -/
inductive ListingError where
  | zeroAmount
  | strikeNotRepresentable
  | encodingMismatch
  | ingressNotAllowed
  | bucketExpired
  | bucketNotExpired
  | bucketNotDrained
  | expiryNotAligned
  | strikeScaleTooLarge
  | objectAlreadyExists
  | currencyAlreadyExists
  | noSuchBucket
  | clockRegression
  deriving DecidableEq, Repr

/-! ### Normalization -/

/-- `MAX_SIG`, the largest significand of five bytes. -/
def maxSig : Nat := 0xFFFFFFFFFF

/-- The loop of `normalize_strike`. -/
def stripZeros : Nat → Nat → Nat × Nat
  | sig, 0 => (sig, 0)
  | sig, exp + 1 => if sig % 10 = 0 then stripZeros (sig / 10) exp else (sig, exp + 1)

def normalizeStrike (strike strikeScale : Nat) : Result ListingError (Nat × Nat) := do
  check (0 < strike) .zeroAmount
  check ((stripZeros strike strikeScale).1 ≤ maxSig) .strikeNotRepresentable
  pure (stripZeros strike strikeScale)

def SameStrike (first second : Nat × Nat) : Prop := first.1 * 10 ^ second.2 = second.1 * 10 ^ first.2

def Canonical (pair : Nat × Nat) : Prop := pair.2 = 0 ∨ pair.1 % 10 ≠ 0

theorem SameStrike.symm {first second : Nat × Nat} (same : SameStrike first second) : SameStrike second first :=
  Eq.symm same

theorem SameStrike.trans {first second third : Nat × Nat} (left : SameStrike first second)
    (right : SameStrike second third) : SameStrike first third := by
  unfold SameStrike at *
  refine Nat.eq_of_mul_eq_mul_right (Nat.pow_pos (by decide) : 0 < 10 ^ second.2) ?_
  calc first.1 * 10 ^ third.2 * 10 ^ second.2
      = first.1 * 10 ^ second.2 * 10 ^ third.2 := by ring
    _ = second.1 * 10 ^ third.2 * 10 ^ first.2 := by rw [left]; ring
    _ = third.1 * 10 ^ first.2 * 10 ^ second.2 := by rw [right]; ring

theorem stripZeros_same (sig exp : Nat) : SameStrike (stripZeros sig exp) (sig, exp) := by
  induction exp generalizing sig with
  | zero => rfl
  | succ exp ih =>
    unfold stripZeros
    split
    · rename_i round
      refine (ih (sig / 10)).trans ?_
      have whole := Nat.div_add_mod sig 10
      rw [round] at whole
      unfold SameStrike
      simp only
      calc sig / 10 * 10 ^ (exp + 1) = (10 * (sig / 10) + 0) * 10 ^ exp := by ring
        _ = sig * 10 ^ exp := by rw [whole]
    · rfl

theorem stripZeros_exp_le (sig exp : Nat) : (stripZeros sig exp).2 ≤ exp := by
  induction exp generalizing sig with
  | zero => exact Nat.le_refl 0
  | succ exp ih =>
    unfold stripZeros
    split
    · exact Nat.le_succ_of_le (ih (sig / 10))
    · exact Nat.le_refl _

theorem stripZeros_canonical (sig exp : Nat) : Canonical (stripZeros sig exp) := by
  induction exp generalizing sig with
  | zero => exact Or.inl rfl
  | succ exp ih =>
    unfold stripZeros
    split
    · exact ih (sig / 10)
    · rename_i rest
      exact Or.inr rest

theorem Canonical.unique {first second : Nat × Nat} (left : Canonical first) (right : Canonical second)
    (same : SameStrike first second) : first = second := by
  obtain ⟨a, e⟩ := first
  obtain ⟨b, f⟩ := second
  -- the pair with the larger exponent would have a significand divisible by ten
  have ordered : ∀ {a e b f : Nat}, Canonical (b, f) → SameStrike (a, e) (b, f) → f ≤ e := by
    intro a e b f right same
    by_contra less
    simp only [SameStrike, Canonical] at same right
    obtain ⟨more, rfl⟩ : ∃ more, f = e + (more + 1) := ⟨f - e - 1, by omega⟩
    have scaled : a * 10 ^ (more + 1) = b := by
      refine Nat.eq_of_mul_eq_mul_right (Nat.pow_pos (by decide) : 0 < 10 ^ e) ?_
      rw [← same]
      ring
    rcases right with zero | rest
    · omega
    · rw [← scaled, Nat.pow_succ, ← Nat.mul_assoc, Nat.mul_mod_left] at rest
      exact rest rfl
  have exponents : e = f := Nat.le_antisymm (ordered left same.symm) (ordered right same)
  subst exponents
  simp only [SameStrike] at same
  rw [Nat.eq_of_mul_eq_mul_right (Nat.pow_pos (by decide)) same]

theorem stripZeros_eq_iff (first second : Nat × Nat) :
    stripZeros first.1 first.2 = stripZeros second.1 second.2 ↔ SameStrike first second := by
  have left := stripZeros_same first.1 first.2
  have right := stripZeros_same second.1 second.2
  constructor
  · intro equal
    rw [equal] at left
    exact left.symm.trans right
  · intro same
    exact (stripZeros_canonical _ _).unique (stripZeros_canonical _ _) (left.trans (same.trans right.symm))

theorem normalizeStrike_ok {strike strikeScale : Nat} {pair : Nat × Nat} :
    normalizeStrike strike strikeScale = .ok pair ↔
      0 < strike ∧ pair.1 ≤ maxSig ∧ pair = stripZeros strike strikeScale := by
  simp only [normalizeStrike, check_bind_ok, pure_ok]
  constructor
  · rintro ⟨positive, small, rfl⟩
    exact ⟨positive, small, rfl⟩
  · rintro ⟨positive, small, rfl⟩
    exact ⟨positive, small, rfl⟩

theorem normalizeStrike_congr {first second : Nat × Nat} (same : SameStrike first second) :
    normalizeStrike first.1 first.2 = normalizeStrike second.1 second.2 := by
  have equal := (stripZeros_eq_iff first second).mpr same
  have positive : 0 < first.1 ↔ 0 < second.1 := by
    unfold SameStrike at same
    rw [← Nat.mul_pos_iff_of_pos_right (Nat.pow_pos (by decide) : 0 < 10 ^ second.2), same,
      Nat.mul_pos_iff_of_pos_right (Nat.pow_pos (by decide) : 0 < 10 ^ first.2)]
  unfold normalizeStrike
  rw [equal]
  simp only [positive]

/-! ### The types of option coins -/

def upperHexDigits : List Char := ['0', '1', '2', '3', '4', '5', '6', '7', '8', '9', 'A', 'B', 'C', 'D', 'E', 'F']

def upperHex (digit : Nat) : Char := upperHexDigits.getD digit '0'

theorem upperHex_identifier (digit : Nat) : identifierChar (upperHex digit) = true := by
  have table : ∀ c ∈ upperHexDigits, identifierChar c = true :=
    List.all_eq_true.mp (by decide)
  unfold upperHex
  rw [List.getD_eq_getElem?_getD]
  cases found : upperHexDigits[digit]? with
  | none => decide
  | some c => exact table c (List.mem_of_getElem? found)

/-- The struct of a byte: `B00` to `B7F` in `enc0`, `B80` to `BFF` in `enc1`. -/
def markerName (byte : Nat) : Identifier where
  text := ['B', upperHex (byte / 16), upperHex (byte % 16)]
  valid := by
    simp only [List.all_cons, List.all_nil, upperHex_identifier, Bool.and_true]
    decide

def enc0 : Identifier := ⟨['e', 'n', 'c', '0'], by decide⟩

def enc1 : Identifier := ⟨['e', 'n', 'c', '1'], by decide⟩

def optionCoinModule : Identifier := ⟨['o', 'p', 't', 'i', 'o', 'n', '_', 'c', 'o', 'i', 'n'], by decide⟩

def anchorName : Identifier := ⟨['A', 'n', 'c', 'h', 'o', 'r'], by decide⟩

/-- The root of a side, `OptionCall` or `OptionPut`. -/
def rootName : Bool → Identifier
  | false => ⟨['O', 'p', 't', 'i', 'o', 'n', 'C', 'a', 'l', 'l'], by decide⟩
  | true => ⟨['O', 'p', 't', 'i', 'o', 'n', 'P', 'u', 't'], by decide⟩

-- `options_core` as it is published: the address that its types carry
variable (package : BitVec 256)

def marker (byte : Nat) : MoveType :=
  .datatype package (if byte < 128 then enc0 else enc1) (markerName byte) []

/-- `OptionCall<U, S, D0, .., D9>` and its twin. -/
def optionType (isPut : Bool) (underlying settlement : MoveType) (digits : List MoveType) : MoveType :=
  .datatype package optionCoinModule (rootName isPut) (underlying :: settlement :: digits)

/-- `count` times `pop_back`. -/
def popBack (count : Nat) (text : List Char) : List Char := text.take (text.length - count)

def modulePrefix : List Char := popBack 6 (typeName (.datatype package optionCoinModule anchorName []))

def pushBe (value : Nat) : Nat → List Nat
  | 0 => []
  | i + 1 => (value >>> (8 * i) &&& 0xFF) :: pushBe value i

def termBytes (expiryMinutes sig exp : Nat) : List Nat := pushBe expiryMinutes 4 ++ pushBe sig 5 ++ [exp]

/-- One pass of the loop of `expected_type_bytes`. -/
def byteText (byte : Nat) : List Char :=
  ',' :: ((if byte < 128 then popBack 2 (typeName (marker package 0x00)) else popBack 2 (typeName (marker package 0x80))) ++
    [upperHex (byte >>> 4), upperHex (byte &&& 0xF)])

def expectedTypeBytes (isPut : Bool) (underlying settlement : MoveType) (expiryMinutes sig exp : Nat) : TypeName :=
  modulePrefix package ++ (rootName isPut).text ++ '<' :: (typeName underlying ++ ',' :: (typeName settlement ++
    ((termBytes expiryMinutes sig exp).flatMap (byteText package) ++ ['>'])))

/-! ### The expected bytes are the name of a type -/

theorem popBack_append {count : Nat} (text : List Char) {tail : List Char} (length : tail.length = count) :
    popBack count (text ++ tail) = text := by
  unfold popBack
  rw [List.length_append, length, Nat.add_sub_cancel, List.take_left]

theorem typeName_plain (module name : Identifier) :
    typeName (.datatype package module name []) =
      addressText package ++ [':', ':'] ++ module.text ++ [':', ':'] ++ name.text := by
  rw [typeName, argumentText, List.append_nil, pathText]

theorem modulePrefix_eq :
    modulePrefix package = addressText package ++ [':', ':'] ++ optionCoinModule.text ++ [':', ':'] := by
  rw [modulePrefix, typeName_plain]
  exact popBack_append _ rfl

theorem popBack_marker (byte : Nat) :
    popBack 2 (typeName (marker package byte)) =
      addressText package ++ [':', ':'] ++ (if byte < 128 then enc0 else enc1).text ++ [':', ':'] ++ ['B'] := by
  have name : (markerName byte).text = ['B'] ++ [upperHex (byte / 16), upperHex (byte % 16)] := rfl
  rw [marker, typeName_plain, name, ← List.append_assoc]
  exact popBack_append _ rfl

theorem typeName_marker (byte : Nat) :
    typeName (marker package byte) =
      popBack 2 (typeName (marker package byte)) ++ [upperHex (byte / 16), upperHex (byte % 16)] := by
  have name : (markerName byte).text = ['B'] ++ [upperHex (byte / 16), upperHex (byte % 16)] := rfl
  rw [popBack_marker, marker, typeName_plain, name]
  exact (List.append_assoc _ _ _).symm

theorem byteText_eq (byte : Nat) : byteText package byte = ',' :: typeName (marker package byte) := by
  have high : byte >>> 4 = byte / 16 := Nat.shiftRight_eq_div_pow byte 4
  have low : byte &&& 0xF = byte % 16 := Nat.and_two_pow_sub_one_eq_mod byte 4
  -- the samples `B00` and `B80` stand for every marker of their module
  have sample : (if byte < 128 then popBack 2 (typeName (marker package 0x00))
      else popBack 2 (typeName (marker package 0x80))) = popBack 2 (typeName (marker package byte)) := by
    rw [popBack_marker, popBack_marker, popBack_marker]
    split
    · rw [if_pos (by decide)]
    · rw [if_neg (by decide)]
  rw [typeName_marker, byteText, high, low, sample]

theorem restText_eq (arguments : List MoveType) :
    restText arguments = arguments.flatMap (fun t => ',' :: typeName t) ++ ['>'] := by
  induction arguments with
  | nil => rfl
  | cons next rest ih => simp [restText, ih]

def expectedType (isPut : Bool) (underlying settlement : MoveType) (expiryMinutes sig exp : Nat) : MoveType :=
  optionType package isPut underlying settlement ((termBytes expiryMinutes sig exp).map (marker package))

theorem expectedTypeBytes_eq (isPut : Bool) (underlying settlement : MoveType) (expiryMinutes sig exp : Nat) :
    expectedTypeBytes package isPut underlying settlement expiryMinutes sig exp =
      typeName (expectedType package isPut underlying settlement expiryMinutes sig exp) := by
  have digits : (termBytes expiryMinutes sig exp).flatMap (byteText package) ++ ['>'] =
      restText ((termBytes expiryMinutes sig exp).map (marker package)) := by
    have each : byteText package = fun byte => ',' :: typeName (marker package byte) := by
      funext byte
      exact byteText_eq package byte
    rw [restText_eq, List.flatMap_map, each]
  rw [expectedTypeBytes, digits, modulePrefix_eq, expectedType, optionType, typeName, argumentText, restText, pathText]

/-! ### Reading the terms back -/

theorem pushBe_snoc (value count : Nat) : pushBe value (count + 1) = pushBe (value / 256) count ++ [value % 256] := by
  induction count with
  | zero =>
    have low : value &&& 0xFF = value % 256 := Nat.and_two_pow_sub_one_eq_mod value 8
    simp [pushBe, low]
  | succ count ih =>
    rw [pushBe, ih]
    have shift : value >>> (8 * (count + 1)) = (value / 256) >>> (8 * count) := by
      rw [Nat.mul_add, Nat.add_comm, Nat.shiftRight_add]
      rw [Nat.shiftRight_eq_div_pow value]
    rw [shift]
    rfl

theorem pushBe_eq (value count : Nat) : pushBe value count = Text.numeral 256 id count value := by
  induction count generalizing value with
  | zero => rfl
  | succ count ih => rw [pushBe_snoc, ih, Text.numeral]; rfl

theorem pushBe_inj {first second count : Nat} (left : first < 256 ^ count) (right : second < 256 ^ count)
    (same : pushBe first count = pushBe second count) : first = second := by
  rw [pushBe_eq, pushBe_eq] at same
  exact Text.numeral_inj (fun _ _ _ _ equal => equal) left right same

def Encodable (expiryMinutes sig exp : Nat) : Prop := expiryMinutes < 2 ^ 32 ∧ sig < 2 ^ 40 ∧ exp < 2 ^ 8

theorem termBytes_small {expiryMinutes sig exp : Nat} (fits : exp < 2 ^ 8) :
    ∀ byte ∈ termBytes expiryMinutes sig exp, byte < 256 := by
  have pushed : ∀ value count, ∀ byte ∈ pushBe value count, byte < 256 := by
    intro value count byte member
    rw [pushBe_eq] at member
    obtain ⟨digit, small, rfl⟩ := Text.mem_numeral (by decide) member
    exact small
  intro byte member
  simp only [termBytes, List.mem_append, List.mem_singleton] at member
  rcases member with (minutes | sig) | rfl
  · exact pushed _ _ byte minutes
  · exact pushed _ _ byte sig
  · exact fits

theorem termBytes_inj {minutes sig exp minutes' sig' exp' : Nat} (left : Encodable minutes sig exp)
    (right : Encodable minutes' sig' exp') (same : termBytes minutes sig exp = termBytes minutes' sig' exp') :
    minutes = minutes' ∧ sig = sig' ∧ exp = exp' := by
  have length : ∀ value count, (pushBe value count).length = count := by
    intro value count
    rw [pushBe_eq, Text.numeral_length]
  obtain ⟨fields, exponents⟩ := List.append_inj same (by simp [length])
  obtain ⟨minutesSame, sigs⟩ := List.append_inj fields (by simp [length])
  exact ⟨pushBe_inj left.1 right.1 minutesSame, pushBe_inj left.2.1 right.2.1 sigs, (List.cons.inj exponents).1⟩

theorem marker_inj {first second : Nat} (left : first < 256) (right : second < 256)
    (same : marker package first = marker package second) : first = second := by
  have distinct : ∀ a < 16, ∀ b < 16, upperHex a = upperHex b → a = b := by decide
  simp only [marker, MoveType.datatype.injEq, markerName, Identifier.mk.injEq, List.cons.injEq] at same
  obtain ⟨_, _, ⟨_, high, low, _⟩, _⟩ := same
  have highs := distinct _ (by omega) _ (by omega) high
  have lows := distinct _ (by omega) _ (by omega) low
  omega

theorem expectedType_inj {isPut isPut' : Bool} {underlying settlement underlying' settlement' : MoveType}
    {minutes sig exp minutes' sig' exp' : Nat} (left : Encodable minutes sig exp) (right : Encodable minutes' sig' exp')
    (same : expectedType package isPut underlying settlement minutes sig exp =
      expectedType package isPut' underlying' settlement' minutes' sig' exp') :
    isPut = isPut' ∧ underlying = underlying' ∧ settlement = settlement' ∧ minutes = minutes' ∧ sig = sig' ∧
      exp = exp' := by
  simp only [expectedType, optionType, MoveType.datatype.injEq, List.cons.injEq, true_and] at same
  obtain ⟨roots, rfl, rfl, digits⟩ := same
  have sides : isPut = isPut' := by
    revert roots
    cases isPut <;> cases isPut' <;> decide
  have bytes : termBytes minutes sig exp = termBytes minutes' sig' exp' :=
    Text.spelling_cancel (fun _ small _ other => marker_inj package small other) (termBytes_small left.2.2)
      (termBytes_small right.2.2) digits
  exact ⟨sides, rfl, rfl, termBytes_inj left right bytes⟩

end SuiOptions.Core
