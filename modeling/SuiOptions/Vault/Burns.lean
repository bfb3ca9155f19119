import SuiOptions.Lib.ProRata
import SuiOptions.Vault.Payments

/-! Senior burns in a batch.

A batch locks the claim and the supply it burns against. The cut of the claim is
taken of the locked claim, so a batch rounds it once for each request. The cut of
the principal basis is taken of the basis the earlier requests left, against the
locked supply, so a batch cuts less than one request of all its shares.
-/

set_option autoImplicit false

namespace SuiOptions.Vault

open Execution Move ProRata

namespace TrancheBook

variable {book live next : TrancheBook} {shares lockedClaim lockedSupply : Nat}

def fulfillSenior (lockedClaim lockedSupply : Nat) (book : TrancheBook) (requests : List Nat) : Result Error TrancheBook :=
  requests.foldlM (fun live shares => live.onFulfill .senior shares lockedClaim lockedSupply) book

theorem onFulfill_senior (enough : shares ≤ book.seniorShares) (locked : shares ≤ lockedSupply)
    (claimFits : lockedClaim < u128Bound) (basisFits : book.seniorPrincipalBasis < u128Bound) :
    book.onFulfill .senior shares lockedClaim lockedSupply = .ok { book with
      seniorShares := book.seniorShares - shares
      seniorClaim := book.seniorClaim - portion lockedClaim lockedSupply shares
      seniorPrincipalBasis := book.seniorPrincipalBasis - portion book.seniorPrincipalBasis lockedSupply shares } := by
  refine bind_ok.mpr ⟨_, sub_of enough, ?_⟩
  split
  · next none => simp [none, portion, pure, Except.pure]
  · have claim := Nat.lt_of_le_of_lt (portion_le lockedClaim locked) claimFits
    have basis := Nat.lt_of_le_of_lt (portion_le book.seniorPrincipalBasis locked) basisFits
    exact bind_ok.mpr ⟨_, fit_of claim, bind_ok.mpr ⟨_, fit_of basis, rfl⟩⟩

theorem onFulfill_senior_enough (ran : book.onFulfill .senior shares lockedClaim lockedSupply = .ok next) :
    shares ≤ book.seniorShares := by
  obtain ⟨_, left, -⟩ := bind_ok.mp ran
  exact (sub_ok.mp left).1

/-- A book in the middle of a batch: what it may still burn is part of the locked supply. -/
structure Burning (live : TrancheBook) (lockedSupply : Nat) : Prop where
  supply : live.seniorShares ≤ lockedSupply
  basis : live.seniorPrincipalBasis < u128Bound

theorem Burning.step (burning : live.Burning lockedSupply) (claimFits : lockedClaim < u128Bound)
    (ran : live.onFulfill .senior shares lockedClaim lockedSupply = .ok next) :
    next.Burning lockedSupply ∧ shares ≤ live.seniorShares ∧ next.seniorShares = live.seniorShares - shares ∧
      next.seniorClaim = live.seniorClaim - portion lockedClaim lockedSupply shares ∧
      next.seniorPrincipalBasis =
        live.seniorPrincipalBasis - portion live.seniorPrincipalBasis lockedSupply shares := by
  have enough := onFulfill_senior_enough ran
  have supply := burning.supply
  have basis := burning.basis
  rw [onFulfill_senior enough (enough.trans supply) claimFits basis] at ran
  cases ran
  exact ⟨⟨by simp only; omega, by simp only; omega⟩, enough, rfl, rfl, rfl⟩

/-- A whole batch: each cut of the claim is of the locked one, and the basis is used up by a
request of the whole supply only. -/
theorem fulfillSenior_ok {requests : List Nat} (claimFits : lockedClaim < u128Bound) (burning : live.Burning lockedSupply)
    (ran : fulfillSenior lockedClaim lockedSupply live requests = .ok next) :
    next.Burning lockedSupply ∧ requests.sum ≤ live.seniorShares ∧ next.seniorShares = live.seniorShares - requests.sum ∧
      next.seniorClaim = live.seniorClaim - (requests.map (portion lockedClaim lockedSupply)).sum ∧
      (0 < lockedSupply →
        (next.seniorPrincipalBasis = 0 ↔ live.seniorPrincipalBasis = 0 ∨ lockedSupply ∈ requests)) := by
  induction requests generalizing live with
  | nil =>
    cases ran
    exact ⟨burning, by simp, by simp, by simp, by simp⟩
  | cons shares rest ih =>
    obtain ⟨middle, burned, ran⟩ := bind_ok.mp ran
    obtain ⟨left, enough, supply, claim, basis⟩ := burning.step claimFits burned
    obtain ⟨final, within, supplies, claims, bases⟩ := ih left ran
    refine ⟨final, ?_, ?_, ?_, ?_⟩
    · rw [List.sum_cons]; omega
    · rw [List.sum_cons]; omega
    · rw [List.map_cons, List.sum_cons]; omega
    · intro some
      rw [bases some, basis, sub_portion_eq_zero_iff (enough.trans burning.supply) some, List.mem_cons, or_assoc,
        eq_comm (a := shares)]

theorem fulfillSenior_pair {first second : Nat} (claimFits : lockedClaim < u128Bound)
    (burning : live.Burning lockedSupply) (ran : fulfillSenior lockedClaim lockedSupply live [first, second] = .ok next) :
    next.seniorClaim = live.seniorClaim - portion lockedClaim lockedSupply first - portion lockedClaim lockedSupply second ∧
      next.seniorPrincipalBasis = live.seniorPrincipalBasis - portion live.seniorPrincipalBasis lockedSupply first -
        portion (live.seniorPrincipalBasis - portion live.seniorPrincipalBasis lockedSupply first) lockedSupply second := by
  obtain ⟨middle, burned, ran⟩ := bind_ok.mp ran
  obtain ⟨_, again, ran⟩ := bind_ok.mp ran
  cases pure_ok.mp ran
  obtain ⟨left, -, -, claim, basis⟩ := burning.step claimFits burned
  obtain ⟨-, -, -, claims, bases⟩ := left.step claimFits again
  rw [claims, bases, claim, basis]
  exact ⟨rfl, rfl⟩

theorem fulfillSenior_of {requests : List Nat} (claimFits : lockedClaim < u128Bound)
    (burning : live.Burning lockedSupply) (enough : requests.sum ≤ live.seniorShares) :
    ∃ next, fulfillSenior lockedClaim lockedSupply live requests = .ok next := by
  induction requests generalizing live with
  | nil => exact ⟨live, rfl⟩
  | cons shares rest ih =>
    rw [List.sum_cons] at enough
    have supply := burning.supply
    have burned := onFulfill_senior (by omega : shares ≤ live.seniorShares) (by omega : shares ≤ lockedSupply) claimFits burning.basis
    obtain ⟨left, -, shrunk, -⟩ := burning.step claimFits burned
    obtain ⟨next, ran⟩ := ih left (by omega)
    exact ⟨next, bind_ok.mpr ⟨_, burned, ran⟩⟩

/-- Two requests of a batch change the claim and the basis as one request of both amounts
does, up to one unit for each. -/
def BurnsAsOne (live : TrancheBook) (lockedClaim lockedSupply first second : Nat) : Prop :=
  ∃ two one, fulfillSenior lockedClaim lockedSupply live [first, second] = .ok two ∧
    live.onFulfill .senior (first + second) lockedClaim lockedSupply = .ok one ∧
    (two.seniorClaim ≤ one.seniorClaim + 2 ∧ one.seniorClaim ≤ two.seniorClaim + 2) ∧
    two.seniorPrincipalBasis ≤ one.seniorPrincipalBasis + 2 ∧ one.seniorPrincipalBasis ≤ two.seniorPrincipalBasis + 2

/-- What two requests leave of the basis beyond what one request of both amounts leaves: the
second request's part of the first cut, and the remainders. -/
def basisShortfall (basis lockedSupply first second : Nat) : Nat :=
  (portion basis lockedSupply first * second + basis * first % lockedSupply +
    (basis - portion basis lockedSupply first) * second % lockedSupply) / lockedSupply

theorem burnsAsOne_iff {first second : Nat} (claimFits : lockedClaim < u128Bound) (burning : live.Burning lockedSupply)
    (enough : first + second ≤ live.seniorShares) :
    live.BurnsAsOne lockedClaim lockedSupply first second ↔
      basisShortfall live.seniorPrincipalBasis lockedSupply first second ≤ 2 := by
  have within := enough.trans burning.supply
  have claimLow := portion_add_le lockedClaim lockedSupply first second
  have claimHigh := le_portion_add lockedClaim lockedSupply first second
  have part : first ≤ lockedSupply := by omega
  have basisSplit := @portion_after live.seniorPrincipalBasis _ _ part second
  rw [← basisShortfall] at basisSplit
  have basisWhole := portion_le live.seniorPrincipalBasis within
  obtain ⟨one, once⟩ : ∃ one, live.onFulfill .senior (first + second) lockedClaim lockedSupply = .ok one :=
    ⟨_, onFulfill_senior enough within claimFits burning.basis⟩
  have both : [first, second].sum ≤ live.seniorShares := by simpa using enough
  obtain ⟨two, twice⟩ := fulfillSenior_of claimFits burning both
  obtain ⟨-, -, -, claim, basis⟩ := burning.step claimFits once
  obtain ⟨claims, bases⟩ := fulfillSenior_pair claimFits burning twice
  constructor
  · rintro ⟨_, _, twice', once', -, near, -⟩
    cases twice.symm.trans twice'
    cases once.symm.trans once'
    omega
  · intro small
    refine ⟨two, one, twice, once, ⟨?_, ?_⟩, ?_, ?_⟩
    all_goals omega

/-- In a batch on the terms of its book, two requests burn as one exactly when the shortfall of
the basis is two units at most, and a batch of all the senior shares clears the book exactly
when no cut of the claim is rounded and the basis is cut by one request alone. -/
theorem senior_burns_iff (claimFits : book.seniorClaim < u128Bound) (basisFits : book.seniorPrincipalBasis < u128Bound) :
    (∀ earlier live first second, fulfillSenior book.seniorClaim book.seniorShares book earlier = .ok live →
      first + second ≤ live.seniorShares →
      (live.BurnsAsOne book.seniorClaim book.seniorShares first second ↔
        basisShortfall live.seniorPrincipalBasis book.seniorShares first second ≤ 2)) ∧
    ∀ requests, 0 < book.seniorShares → requests.sum = book.seniorShares →
      ∃ next, fulfillSenior book.seniorClaim book.seniorShares book requests = .ok next ∧
        ((next.seniorClaim = 0 ∧ next.seniorPrincipalBasis = 0) ↔
          (∀ shares ∈ requests, book.seniorShares ∣ book.seniorClaim * shares) ∧
            (book.seniorPrincipalBasis = 0 ∨ book.seniorShares ∈ requests)) := by
  have begins : book.Burning book.seniorShares := ⟨le_rfl, basisFits⟩
  constructor
  · intro earlier live first second ran enough
    exact burnsAsOne_iff claimFits (fulfillSenior_ok claimFits begins ran).1 enough
  · intro requests some whole
    obtain ⟨next, ran⟩ := fulfillSenior_of claimFits begins whole.le
    obtain ⟨-, -, -, claim, basis⟩ := fulfillSenior_ok claimFits begins ran
    have most : (requests.map (portion book.seniorClaim book.seniorShares)).sum ≤ book.seniorClaim :=
      (sum_portion_le _ _ requests).trans (portion_le _ whole.le)
    refine ⟨next, ran, ?_⟩
    rw [basis some, ← sum_portion_eq_iff some whole, claim]
    exact and_congr_left' (by omega)

-- A claim that no cut rounds: one of three shares and another burn as two, and one request clears the book.
theorem senior_burns_small :
    BurnsAsOne { new 0 with seniorShares := 3, seniorClaim := 300, seniorPrincipalBasis := 2 } 300 3 1 1 ∧
      ∃ next, fulfillSenior 300 3 { new 0 with seniorShares := 3, seniorClaim := 300, seniorPrincipalBasis := 2 } [3] =
          .ok next ∧ next.seniorClaim = 0 ∧ next.seniorPrincipalBasis = 0 := by
  obtain ⟨pairs, batches⟩ := @senior_burns_iff { new 0 with seniorShares := 3, seniorClaim := 300, seniorPrincipalBasis := 2 }
    (by decide) (by decide)
  obtain ⟨next, ran, clears⟩ := batches [3] (by decide) rfl
  exact ⟨(pairs [] _ 1 1 rfl (by decide)).mpr (by decide), next, ran, clears.mpr (by decide)⟩

/-- Two halves of the senior shares leave a quarter of the basis, one request of all of them nothing. -/
theorem senior_burns_halves :
    ∃ two one, fulfillSenior 100 100 { new 0 with seniorShares := 100, seniorClaim := 100, seniorPrincipalBasis := 100 }
        [50, 50] = .ok two ∧
      onFulfill { new 0 with seniorShares := 100, seniorClaim := 100, seniorPrincipalBasis := 100 } .senior 100 100 100 =
        .ok one ∧
      two.seniorShares = 0 ∧ two.seniorClaim = 0 ∧ two.seniorPrincipalBasis = 25 ∧ one.seniorPrincipalBasis = 0 :=
  ⟨_, _, rfl, rfl, rfl, rfl, rfl, rfl⟩

end TrancheBook

end SuiOptions.Vault
