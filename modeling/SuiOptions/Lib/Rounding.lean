import Mathlib.Algebra.Order.Field.Basic
import Mathlib.Data.Nat.Cast.Order.Field
import Mathlib.Tactic.GCongr
import Mathlib.Tactic.Linarith
import Mathlib.Tactic.Ring

/-! Multiples of a rate, rounded to naturals.

A rounding moves a multiple up by a bias at most and down by less than what the bias leaves of
one. Of two rates the cheaper is the worst: no division of an amount between them is
worth less, and the roundings add less than three units to that.
-/

set_option autoImplicit false

section

variable {K : Type} [Field K] [LinearOrder K] [IsStrictOrderedRing K]

/-- `round` rounds the multiples of `rate`: the bias is 0 to round down and nearly 1 to round up. -/
structure Rounds (rate bias : K) (round : ℕ → ℕ) : Prop where
  le : ∀ n, (round n : K) ≤ n * rate + bias
  lt : ∀ n, n * rate + bias < round n + 1

namespace Rounds

theorem of_div (factor bias : ℕ) {divisor : ℕ} (positive : 0 < divisor) :
    Rounds (factor / divisor : K) (bias / divisor) fun n => (n * factor + bias) / divisor where
  le n := by
    have below : (((n * factor + bias) / divisor : ℕ) : K) ≤ ((n * factor + bias : ℕ) : K) / divisor := Nat.cast_div_le
    push_cast at below
    calc (((n * factor + bias) / divisor : ℕ) : K) ≤ (n * factor + bias) / divisor := below
      _ = n * (factor / divisor) + bias / divisor := by ring
  lt n := by
    have scaled : (0 : K) < divisor := Nat.cast_pos.mpr positive
    have above : n * factor + bias < divisor * ((n * factor + bias) / divisor + 1) := Nat.lt_mul_div_succ _ positive
    have cast : (n * factor + bias : K) < divisor * (((n * factor + bias) / divisor : ℕ) + 1) := by exact_mod_cast above
    calc n * (factor / divisor : K) + bias / divisor = (n * factor + bias) / divisor := by ring
      _ < ((n * factor + bias) / divisor : ℕ) + 1 := (div_lt_iff₀' scaled).mpr cast

/-- An amount at the cheaper of two rates is worth at most any division of it at both. -/
theorem min_mul_le {part whole first second : K} (start : 0 ≤ part) (within : part ≤ whole) :
    min (whole * first) (whole * second) ≤ part * first + (whole - part) * second := by
  rcases le_total first second with cheap | cheap
  · have rest : (whole - part) * first ≤ (whole - part) * second := mul_le_mul_of_nonneg_left cheap (sub_nonneg.mpr within)
    calc min (whole * first) (whole * second) ≤ whole * first := min_le_left _ _
      _ = part * first + (whole - part) * first := by ring
      _ ≤ part * first + (whole - part) * second := by gcongr
  · have moved : part * second ≤ part * first := mul_le_mul_of_nonneg_left cheap start
    calc min (whole * first) (whole * second) ≤ whole * second := min_le_right _ _
      _ = part * second + (whole - part) * second := by ring
      _ ≤ part * first + (whole - part) * second := by gcongr

/-- What is past stays at its rate and the rest is marked at the cheaper rate: more of it passing later loses at most
two units. -/
theorem mark_le {first second bias marked paid : K} {past rest final : ℕ → ℕ} (passing : Rounds first bias past)
    (marking : Rounds second marked rest) (paying : Rounds second paid final) (small : bias ≤ 1 + paid)
    (smaller : marked ≤ 1 + paid) {early late whole : ℕ} (passed : early ≤ late) (within : late ≤ whole) :
    past early + min (past (whole - early)) (rest (whole - early)) ≤ past late + final (whole - late) + 2 := by
  have later : ((whole - late : ℕ) : K) = whole - late := Nat.cast_sub within
  have sooner : ((whole - early : ℕ) : K) = whole - early := Nat.cast_sub (passed.trans within)
  have moves : (early : K) ≤ late := Nat.cast_le.mpr passed
  have fits : (late : K) ≤ whole := Nat.cast_le.mpr within
  have mix : min ((whole - early : K) * first) ((whole - early) * second) ≤
      (late - early) * first + (whole - early - (late - early)) * second :=
    min_mul_le (sub_nonneg.mpr moves) (by linarith)
  have cheaper : (min (past (whole - early)) (rest (whole - early)) : ℕ) ≤
      min ((whole - early : K) * first) ((whole - early) * second) + (1 + paid) := by
    have up := passing.le (whole - early)
    have down := marking.le (whole - early)
    rw [sooner] at up down
    rw [Nat.cast_min, ← min_add_add_right]
    exact min_le_min (up.trans (by linarith)) (down.trans (by linarith))
  have start := passing.le early
  have ends := passing.lt late
  have pays := paying.lt (whole - late)
  rw [later] at pays
  have strict : ((past early + min (past (whole - early)) (rest (whole - early)) : ℕ) : K) <
      ((past late + final (whole - late) + 3 : ℕ) : K) := by
    push_cast at cheaper ⊢
    linarith
  exact Nat.le_of_lt_succ (Nat.cast_lt.mp strict)

end Rounds

end
