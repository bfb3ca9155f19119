import SuiOptions.Vault.Payments

/-! The laws of the waterfall.

The value is split between the tranches piece by piece: up to the claim all of it
is the senior's, above the claim the senior takes its floored part of the residual,
and in the capped mode only up to the cap.
-/

set_option autoImplicit false

namespace SuiOptions.Vault

open Execution Move

/-- The part in the residual is a share of it. -/
def SeniorUpside.Bounded : SeniorUpside → Prop
  | .preferredOnly => True
  | .cappedParticipating residualBps _ => residualBps ≤ bpsDenom
  | .uncappedParticipating residualBps => residualBps ≤ bpsDenom

def SeniorUpside.cap (basis : Nat) : SeniorUpside → Option Nat
  | .cappedParticipating _ capBps => some (basis * capBps / bpsDenom)
  | _ => none

/-- More of a floored share, but not by more than what is shared. -/
theorem bps_grows {bps residual more : Nat} (bound : bps ≤ bpsDenom) (grown : residual ≤ more) :
    residual * bps / bpsDenom ≤ more * bps / bpsDenom ∧
      more * bps / bpsDenom ≤ residual * bps / bpsDenom + (more - residual) := by
  constructor
  · exact Nat.div_le_div_right (Nat.mul_le_mul_right _ grown)
  · calc more * bps / bpsDenom = (residual * bps + (more - residual) * bps) / bpsDenom := by
          rw [← Nat.add_mul, Nat.add_sub_cancel' grown]
      _ ≤ (residual * bps + (more - residual) * bpsDenom) / bpsDenom := by
          apply Nat.div_le_div_right
          exact Nat.add_le_add_left (Nat.mul_le_mul_left _ bound) _
      _ = residual * bps / bpsDenom + (more - residual) := Nat.add_mul_div_right _ _ (by decide)

namespace TrancheBook

variable {upside : SeniorUpside} {nav more claim basis : Nat}

theorem participation_le (bounded : upside.Bounded) (residual preferred basis : Nat) :
    participation upside residual preferred basis ≤ residual := by
  cases upside with
  | preferredOnly => exact Nat.zero_le _
  | cappedParticipating residualBps capBps => exact (Nat.min_le_left _ _).trans (bps_le residual bounded)
  | uncappedParticipating residualBps => exact bps_le residual bounded

theorem participation_none (preferred : Nat) : participation upside 0 preferred basis = 0 := by
  cases upside <;> simp [participation]

/-- More residual gives the senior more, and leaves the junior no less. -/
theorem participation_grows (bounded : upside.Bounded) {residual more : Nat} (grown : residual ≤ more)
    (preferred basis : Nat) :
    participation upside residual preferred basis ≤ participation upside more preferred basis ∧
      participation upside more preferred basis ≤ participation upside residual preferred basis + (more - residual) := by
  cases upside with
  | preferredOnly => exact ⟨Nat.zero_le _, Nat.zero_le _⟩
  | cappedParticipating residualBps capBps =>
    have part := bps_grows bounded grown
    simp only [participation]
    omega
  | uncappedParticipating residualBps => exact bps_grows bounded grown

def seniorNav (upside : SeniorUpside) (nav claim basis : Nat) : Nat :=
  min nav claim + participation upside (nav - min nav claim) (min nav claim) basis

theorem seniorNav_le (bounded : upside.Bounded) (nav claim basis : Nat) : seniorNav upside nav claim basis ≤ nav := by
  have part := participation_le bounded (nav - min nav claim) (min nav claim) basis
  have preferred := Nat.min_le_left nav claim
  unfold seniorNav
  omega

theorem seniorNav_covered (covered : claim ≤ nav) :
    seniorNav upside nav claim basis = claim + participation upside (nav - claim) claim basis := by
  rw [seniorNav, Nat.min_eq_right covered]

theorem seniorNav_short (short : nav ≤ claim) : seniorNav upside nav claim basis = nav := by
  rw [seniorNav, Nat.min_eq_left short, Nat.sub_self, participation_none, Nat.add_zero]

theorem waterfall_eq {hurdle target maintenance : Nat} (bounded : upside.Bounded) (small : nav < u128Bound) :
    waterfall (.seniorJunior hurdle target maintenance upside) nav claim basis =
      .ok (seniorNav upside nav claim basis, nav - seniorNav upside nav claim basis) := by
  have part := participation_le bounded (nav - min nav claim) (min nav claim) basis
  have within := seniorNav_le bounded nav claim basis
  have fits : seniorNav upside nav claim basis < u128Bound := Nat.lt_of_le_of_lt within small
  refine bind_ok.mpr ⟨_, fit_ok.mpr ⟨by omega, rfl⟩, bind_ok.mpr ⟨_, fit_ok.mpr ⟨fits, rfl⟩, ?_⟩⟩
  exact bind_ok.mpr ⟨_, sub_ok.mpr ⟨within, rfl⟩, rfl⟩

theorem seniorNav_grows (bounded : upside.Bounded) (grown : nav ≤ more) (claim basis : Nat) :
    seniorNav upside nav claim basis ≤ seniorNav upside more claim basis ∧
      nav - seniorNav upside nav claim basis ≤ more - seniorNav upside more claim basis := by
  have within := seniorNav_le bounded more claim basis
  by_cases covered : claim ≤ nav
  · -- The claim is covered at both values: only the part in the residual differs.
    have part := participation_grows bounded (Nat.sub_le_sub_right grown claim) claim basis
    rw [seniorNav_covered covered]
    rw [seniorNav_covered (covered.trans grown)] at within ⊢
    omega
  · -- The lower value is all the senior's, and the higher one gives it at least the preferred amount.
    have preferred : min more claim ≤ seniorNav upside more claim basis := Nat.le_add_right _ _
    rw [seniorNav_short (by omega : nav ≤ claim)]
    omega

theorem seniorNav_le_cap {limit : Nat} (capped : upside.cap basis = some limit) (claims : claim ≤ limit) :
    seniorNav upside nav claim basis ≤ limit := by
  cases upside with
  | cappedParticipating residualBps capBps =>
    cases capped
    simp only [seniorNav, participation]
    omega
  | preferredOnly => cases capped
  | uncappedParticipating residualBps => cases capped

/-- The split is exact, the claim comes first, the cap holds and no side loses when the value grows. -/
theorem waterfall_laws {hurdle target maintenance : Nat} (bounded : upside.Bounded) (small : nav < u128Bound) :
    ∃ senior junior,
      waterfall (.seniorJunior hurdle target maintenance upside) nav claim basis = .ok (senior, junior) ∧
      senior + junior = nav ∧ min nav claim ≤ senior ∧
      (∀ limit, upside.cap basis = some limit → claim ≤ limit → senior ≤ limit) ∧
      ∀ more seniorMore juniorMore, nav ≤ more → more < u128Bound →
        waterfall (.seniorJunior hurdle target maintenance upside) more claim basis = .ok (seniorMore, juniorMore) →
        senior ≤ seniorMore ∧ junior ≤ juniorMore := by
  refine ⟨_, _, waterfall_eq bounded small, ?_, Nat.le_add_right _ _, ?_, ?_⟩
  · exact Nat.add_sub_cancel' (seniorNav_le bounded nav claim basis)
  · intro limit capped claims
    exact seniorNav_le_cap capped claims
  · intro more seniorMore juniorMore grown fits falls
    rw [waterfall_eq bounded fits] at falls
    cases falls
    exact seniorNav_grows bounded grown claim basis

-- The cap binds at the higher value only.
theorem waterfall_laws_capped :
    ∃ senior junior,
      waterfall (.seniorJunior 500 2000 1000 (.cappedParticipating 3333 12000)) 1301 1050 1000 = .ok (senior, junior) ∧
      senior + junior = 1301 ∧ min 1301 1050 ≤ senior ∧
      (∀ limit, (SeniorUpside.cappedParticipating 3333 12000).cap 1000 = some limit → 1050 ≤ limit → senior ≤ limit) ∧
      ∀ more seniorMore juniorMore, 1301 ≤ more → more < u128Bound →
        waterfall (.seniorJunior 500 2000 1000 (.cappedParticipating 3333 12000)) more 1050 1000 =
          .ok (seniorMore, juniorMore) →
        senior ≤ seniorMore ∧ junior ≤ juniorMore :=
  waterfall_laws (by unfold SeniorUpside.Bounded; decide) (by decide)

end TrancheBook

end SuiOptions.Vault
