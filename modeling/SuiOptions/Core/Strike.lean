import SuiOptions.Move.Runtime

/-! Error codes of the options package and its scaled strike arithmetic.

A strike is the ratio `strike / 10^strikeScale` of settlement units per
underlying unit. The call side rounds every cash leg to the nearest unit; the
put side rounds collateral up and every payout down.
-/

set_option autoImplicit false

namespace SuiOptions.Core

open Execution Move

/-- The codes of `errors.move` that the bucket modules raise, the framework
errors they can run into (`sui::balance`, `sui::dynamic_field`), and the cases
in which no such transaction exists: a coin or an object that is not there, or
one object passed twice where one of the references is mutable. -/
inductive Error where
  | bucketExpired
  | bucketNotExpired
  | bucketNotDrained
  | amountMismatch
  | settlementAmountMismatch
  | cursorOverflow
  | positionBucketMismatch
  | zeroAmount
  | strikeScaleTooLarge
  | bucketInvalidated
  | bucketNotInvalidated
  | putCollateralMismatch
  | closeExceedsPosition
  | closeRangeExercised
  | spreadUnwindRequired
  | spreadExpiryMismatch
  | spreadStrikeTooHigh
  | spreadNotFound
  | spreadBucketMismatch
  | spreadPosition
  | putSpreadExerciseRequired
  | putSpreadNotAtCursor
  | ingressNotAllowed
  | notEnoughUnderlying
  | notEnoughSettlement
  | notEnoughLong
  | supplyOverflow
  | fieldExists
  | fieldMissing
  | noSuchCoin
  | noSuchPosition
  | sameObject
  | clockRegression
  deriving DecidableEq, Repr

def maxStrikeScale : Nat := 38

-- The source multiplies in a loop; up to the cap the product stays below 2^128.
def pow10 (exp : Nat) : Result Error Nat := do
  check (exp ≤ maxStrikeScale) .strikeScaleTooLarge
  pure (10 ^ exp)

/-- `round_half_up(amount * strike / 10^strikeScale)` -/
def applyStrike (amount strike strikeScale : Nat) : Result Error Nat := do
  let divisor ← pow10 strikeScale
  let numerator ← mulU128 amount strike
  let half := divisor / 2
  let sum ← addU128 numerator half
  castU64 (sum / divisor)

def applyStrikeCeil (amount strike strikeScale : Nat) : Result Error Nat := do
  let divisor ← pow10 strikeScale
  let numerator ← mulU128 amount strike
  let sum ← addU128 numerator divisor
  let sum ← sub sum 1
  castU64 (sum / divisor)

def applyStrikeFloor (amount strike strikeScale : Nat) : Result Error Nat := do
  let divisor ← pow10 strikeScale
  let numerator ← mulU128 amount strike
  castU64 (numerator / divisor)

theorem pow10_ok {exp result : Nat} : pow10 exp = .ok result ↔ exp ≤ maxStrikeScale ∧ 10 ^ exp = result := by
  simp only [pow10, bind_ok, check_ok, pure_ok]
  constructor
  · rintro ⟨_, small, same⟩
    exact ⟨small, same⟩
  · rintro ⟨small, same⟩
    exact ⟨(), small, same⟩

/-- The value `applyStrike` rounds to, without the machine bounds. -/
def halfUp (amount strike strikeScale : Nat) : Nat :=
  (amount * strike + 10 ^ strikeScale / 2) / 10 ^ strikeScale

theorem applyStrike_ok {amount strike strikeScale result : Nat} :
    applyStrike amount strike strikeScale = .ok result ↔
      strikeScale ≤ maxStrikeScale ∧ amount * strike + 10 ^ strikeScale / 2 < u128Bound ∧
        result < u64Bound ∧ result = halfUp amount strike strikeScale := by
  simp only [applyStrike, bind_ok, pow10_ok, mulU128, addU128, castU64, fit_ok, halfUp]
  constructor
  · rintro ⟨divisor, ⟨small, rfl⟩, numerator, ⟨_, rfl⟩, sum, ⟨bound, rfl⟩, narrow, rfl⟩
    exact ⟨small, bound, narrow, rfl⟩
  · rintro ⟨small, bound, narrow, rfl⟩
    exact ⟨_, ⟨small, rfl⟩, _, ⟨lt_of_le_of_lt (Nat.le_add_right _ _) bound, rfl⟩, _, ⟨bound, rfl⟩, narrow, rfl⟩

theorem applyStrikeCeil_ok {amount strike strikeScale result : Nat} :
    applyStrikeCeil amount strike strikeScale = .ok result ↔
      strikeScale ≤ maxStrikeScale ∧ amount * strike + 10 ^ strikeScale < u128Bound ∧
        result < u64Bound ∧ result = (amount * strike + 10 ^ strikeScale - 1) / 10 ^ strikeScale := by
  have positive : 0 < 10 ^ strikeScale := by positivity
  simp only [applyStrikeCeil, bind_ok, pow10_ok, mulU128, addU128, castU64, fit_ok, sub_ok]
  constructor
  · rintro ⟨divisor, ⟨small, rfl⟩, numerator, ⟨_, rfl⟩, sum, ⟨bound, rfl⟩, less, ⟨_, rfl⟩, narrow, rfl⟩
    exact ⟨small, bound, narrow, rfl⟩
  · rintro ⟨small, bound, narrow, rfl⟩
    have numerator : amount * strike < u128Bound := lt_of_le_of_lt (Nat.le_add_right _ _) bound
    exact ⟨_, ⟨small, rfl⟩, _, ⟨numerator, rfl⟩, _, ⟨bound, rfl⟩, _, ⟨by omega, rfl⟩, narrow, rfl⟩

theorem applyStrikeFloor_ok {amount strike strikeScale result : Nat} :
    applyStrikeFloor amount strike strikeScale = .ok result ↔
      strikeScale ≤ maxStrikeScale ∧ amount * strike < u128Bound ∧
        result < u64Bound ∧ result = amount * strike / 10 ^ strikeScale := by
  simp only [applyStrikeFloor, bind_ok, pow10_ok, mulU128, castU64, fit_ok]
  constructor
  · rintro ⟨divisor, ⟨small, rfl⟩, numerator, ⟨bound, rfl⟩, narrow, rfl⟩
    exact ⟨small, bound, narrow, rfl⟩
  · rintro ⟨small, bound, narrow, rfl⟩
    exact ⟨_, ⟨small, rfl⟩, _, ⟨bound, rfl⟩, narrow, rfl⟩

theorem applyStrikeCeil_one {strike strikeScale : Nat} (narrow : strike < u64Bound)
    (scale : strikeScale ≤ maxStrikeScale) : ∃ cost, applyStrikeCeil 1 strike strikeScale = .ok cost := by
  have positive : 0 < 10 ^ strikeScale := by positivity
  have bounded : 10 ^ strikeScale ≤ 10 ^ maxStrikeScale := Nat.pow_le_pow_right (by decide) scale
  have whole : (1 * strike + 10 ^ strikeScale - 1) / 10 ^ strikeScale ≤ strike := by
    rw [Nat.div_le_iff_le_mul_add_pred positive, Nat.one_mul]
    have grown : strike ≤ 10 ^ strikeScale * strike := Nat.le_mul_of_pos_left strike positive
    omega
  refine ⟨_, applyStrikeCeil_ok.mpr ⟨scale, ?_, lt_of_le_of_lt whole narrow, rfl⟩⟩
  simp only [maxStrikeScale, u64Bound, u128Bound] at bounded narrow ⊢
  omega

/-- Fewer units can be priced where more can, at no higher price. -/
theorem applyStrikeCeil_mono {small large strike strikeScale cost : Nat} (less : small ≤ large)
    (computed : applyStrikeCeil large strike strikeScale = .ok cost) :
    ∃ part, applyStrikeCeil small strike strikeScale = .ok part ∧ part ≤ cost := by
  obtain ⟨scale, fits, narrow, rfl⟩ := applyStrikeCeil_ok.mp computed
  have product : small * strike ≤ large * strike := Nat.mul_le_mul_right strike less
  have part : (small * strike + 10 ^ strikeScale - 1) / 10 ^ strikeScale ≤
      (large * strike + 10 ^ strikeScale - 1) / 10 ^ strikeScale := Nat.div_le_div_right (by omega)
  exact ⟨_, applyStrikeCeil_ok.mpr ⟨scale, by omega, lt_of_le_of_lt part narrow, rfl⟩, part⟩

section Rounding

variable (value scale : Nat)

theorem le_ceil : value ≤ 10 ^ scale * ((value + 10 ^ scale - 1) / 10 ^ scale) := by
  have positive : 0 < 10 ^ scale := by positivity
  have split := Nat.div_add_mod (value + 10 ^ scale - 1) (10 ^ scale)
  have small := Nat.mod_lt (value + 10 ^ scale - 1) positive
  omega

theorem ceil_lt : 10 ^ scale * ((value + 10 ^ scale - 1) / 10 ^ scale) < value + 10 ^ scale := by
  have positive : 0 < 10 ^ scale := by positivity
  have below := Nat.mul_div_le (value + 10 ^ scale - 1) (10 ^ scale)
  omega

theorem lt_floor : value < 10 ^ scale * (value / 10 ^ scale) + 10 ^ scale := by
  have split := Nat.div_add_mod value (10 ^ scale)
  have small := Nat.mod_lt value (by positivity : 0 < 10 ^ scale)
  omega

end Rounding

theorem applyStrikeCeil_covers {amount strike strikeScale result : Nat}
    (computed : applyStrikeCeil amount strike strikeScale = .ok result) :
    amount * strike ≤ 10 ^ strikeScale * result := by
  obtain ⟨_, _, _, rfl⟩ := applyStrikeCeil_ok.mp computed
  exact le_ceil _ _

/-- Collateral exceeds that value by less than one settlement unit. -/
theorem applyStrikeCeil_lt {amount strike strikeScale result : Nat}
    (computed : applyStrikeCeil amount strike strikeScale = .ok result) :
    10 ^ strikeScale * result < amount * strike + 10 ^ strikeScale := by
  obtain ⟨_, _, _, rfl⟩ := applyStrikeCeil_ok.mp computed
  exact ceil_lt _ _

/-- A payout never exceeds the strike value of the units it is made for. -/
theorem applyStrikeFloor_le {amount strike strikeScale result : Nat}
    (computed : applyStrikeFloor amount strike strikeScale = .ok result) :
    10 ^ strikeScale * result ≤ amount * strike := by
  obtain ⟨_, _, _, rfl⟩ := applyStrikeFloor_ok.mp computed
  exact Nat.mul_div_le _ _

/-- A payout falls short of that value by less than one settlement unit. -/
theorem lt_applyStrikeFloor {amount strike strikeScale result : Nat}
    (computed : applyStrikeFloor amount strike strikeScale = .ok result) :
    amount * strike < 10 ^ strikeScale * result + 10 ^ strikeScale := by
  obtain ⟨_, _, _, rfl⟩ := applyStrikeFloor_ok.mp computed
  exact lt_floor _ _

end SuiOptions.Core
