import SuiOptions.Vault.Hurdle
import SuiOptions.Vault.Neutrality
import SuiOptions.Vault.Reset

/-! What a junior reset brings back.

The deposit first fills the gap up to the senior claim and the rest is meant to be
the new generation's. The waterfall at the new value agrees where the senior has no
part in that rest; otherwise it gives the new generation less. From the reset on the
claim earns hurdle again, at the new generation's expense.
-/

set_option autoImplicit false

namespace SuiOptions.Vault

open Execution Move
open Exchange (ID Address DomainState)

/-! ### The least deposit -/

/-- The value covers the claim and leaves the junior its target share. -/
def Buffered (claim target total : Nat) : Prop := claim * bpsDenom ≤ total * (bpsDenom - target)

theorem Buffered.mono {claim target total more : Nat} (buffered : Buffered claim target total) (grown : total ≤ more) :
    Buffered claim target more :=
  buffered.trans (Nat.mul_le_mul_right _ grown)

theorem Buffered.keep {claim target maintenance total : Nat} (buffered : Buffered claim target total)
    (kept : maintenance ≤ target) : Buffered claim maintenance total :=
  buffered.trans (Nat.mul_le_mul_left _ (Nat.sub_le_sub_left kept bpsDenom))

theorem buffered_iff {claim target total : Nat} (bound : target ≤ bpsDenom) :
    Buffered claim target total ↔ claim ≤ total ∧ target * total ≤ (total - claim) * bpsDenom := by
  have whole : total * bpsDenom = total * (bpsDenom - target) + target * total := by
    rw [Nat.mul_comm target, ← Nat.mul_add, Nat.sub_add_cancel bound]
  unfold Buffered
  constructor
  · intro enough
    have covered : claim ≤ total := Nat.le_of_mul_le_mul_right (c := bpsDenom) (by omega) (by decide)
    have split : (total - claim) * bpsDenom + claim * bpsDenom = total * bpsDenom := by
      rw [← Nat.add_mul, Nat.sub_add_cancel covered]
    exact ⟨covered, by omega⟩
  · rintro ⟨covered, share⟩
    have split : (total - claim) * bpsDenom + claim * bpsDenom = total * bpsDenom := by
      rw [← Nat.add_mul, Nat.sub_add_cancel covered]
    omega

theorem minResetDeposit_least {nav claim target least : Nat} (bound : target < bpsDenom)
    (ran : minResetDeposit nav claim target = .ok least) :
    IsLeast {deposit | Buffered claim target (nav + deposit)} least := by
  have rest : 0 < bpsDenom - target := by omega
  obtain ⟨_, difference, ran⟩ := bind_ok.mp ran
  obtain ⟨_, rfl⟩ := sub_ok.mp difference
  have reached : ∀ deposit, Buffered claim target (nav + deposit) ↔
      claim * bpsDenom - nav * (bpsDenom - target) ≤ (bpsDenom - target) * deposit := by
    intro deposit
    rw [Buffered, Nat.add_mul, Nat.mul_comm deposit]
    omega
  split at ran
  · next enough =>
    cases pure_ok.mp ran
    refine ⟨(reached 0).mpr ?_, fun _ _ => Nat.zero_le _⟩
    rw [Nat.sub_eq_zero_of_le enough]
    exact Nat.zero_le _
  · obtain ⟨_, rounded, ran⟩ := bind_ok.mp ran
    obtain ⟨_, rfl⟩ := div_ok.mp rounded
    obtain ⟨_, rfl⟩ := fit_ok.mp ran
    have ceiling : ∀ deposit, (claim * bpsDenom - nav * (bpsDenom - target) + (bpsDenom - target) - 1) /
        (bpsDenom - target) ≤ deposit ↔ Buffered claim target (nav + deposit) := by
      intro deposit
      rw [reached, Nat.div_le_iff_le_mul_add_pred rest]
      omega
    exact ⟨(ceiling _).mp (le_refl _), fun deposit buffered => (ceiling deposit).mpr buffered⟩

/-! ### The waterfall after the deposit -/

/-- The senior has no part in the value above its claim: there is none in the mode, it is
less than one unit, or the cap is used up by the claim. -/
def SeniorUpside.Leaves (claim basis total : Nat) : SeniorUpside → Prop
  | .preferredOnly => True
  | .cappedParticipating residualBps capBps =>
    (total - claim) * residualBps < bpsDenom ∨ basis * capBps / bpsDenom ≤ claim
  | .uncappedParticipating residualBps => (total - claim) * residualBps < bpsDenom

theorem SeniorUpside.Leaves.anti {upside : SeniorUpside} {claim basis total more : Nat}
    (leaves : upside.Leaves claim basis more) (grown : total ≤ more) : upside.Leaves claim basis total := by
  have less : ∀ bps, (total - claim) * bps ≤ (more - claim) * bps :=
    fun bps => Nat.mul_le_mul_right _ (Nat.sub_le_sub_right grown claim)
  cases upside with
  | preferredOnly => trivial
  | cappedParticipating residualBps capBps => exact leaves.imp (Nat.lt_of_le_of_lt (less residualBps)) id
  | uncappedParticipating residualBps => exact Nat.lt_of_le_of_lt (less residualBps) leaves

theorem SeniorUpside.Leaves.grow {upside : SeniorUpside} {claim basis total more : Nat}
    (leaves : upside.Leaves claim basis total) (grown : claim ≤ more) : upside.Leaves more basis total := by
  have less : ∀ bps, (total - more) * bps ≤ (total - claim) * bps :=
    fun bps => Nat.mul_le_mul_right _ (Nat.sub_le_sub_left grown total)
  cases upside with
  | preferredOnly => trivial
  | cappedParticipating residualBps capBps => exact leaves.imp (Nat.lt_of_le_of_lt (less residualBps)) grown.trans'
  | uncappedParticipating residualBps => exact Nat.lt_of_le_of_lt (less residualBps) leaves

theorem participation_zero {upside : SeniorUpside} {claim basis total : Nat} :
    TrancheBook.participation upside (total - claim) claim basis = 0 ↔ upside.Leaves claim basis total := by
  cases upside with
  | preferredOnly => simp [TrancheBook.participation, SeniorUpside.Leaves]
  | cappedParticipating residualBps capBps =>
    have none : (total - claim) * residualBps / bpsDenom = 0 ↔ (total - claim) * residualBps < bpsDenom := by
      rw [Nat.div_eq_zero_iff]
      exact or_iff_right (by decide)
    simp only [TrancheBook.participation, SeniorUpside.Leaves]
    rw [Nat.min_eq_zero_iff, none, Nat.sub_eq_zero_iff_le]
  | uncappedParticipating residualBps =>
    simp only [TrancheBook.participation, SeniorUpside.Leaves]
    rw [Nat.div_eq_zero_iff]
    exact or_iff_right (by decide)

namespace TrancheBook

/-- The waterfall of a total gives the junior what is above the claim, that is at least its
target share, and a sync at that total finds a healthy book. -/
structure Restores (book : TrancheBook) (cs : CapitalStructure) (total : Nat) : Prop where
  covered : book.seniorClaim ≤ total
  split : waterfall cs total book.seniorClaim book.seniorPrincipalBasis =
    .ok (book.seniorClaim, total - book.seniorClaim)
  share : cs.targetJuniorBps * total ≤ (total - book.seniorClaim) * bpsDenom
  healthy : ∀ now, (book.updateRiskState cs total (total - book.seniorClaim) now).riskState = .healthy

variable {book : TrancheBook} {hurdle target maintenance total : Nat} {upside : SeniorUpside}

theorem restores_iff (bounded : upside.Bounded) (bound : target ≤ bpsDenom) (kept : maintenance ≤ target)
    (small : total < u128Bound) :
    book.Restores (.seniorJunior hurdle target maintenance upside) total ↔
      Buffered book.seniorClaim target total ∧ upside.Leaves book.seniorClaim book.seniorPrincipalBasis total := by
  rw [buffered_iff bound, ← participation_zero]
  constructor
  · intro restores
    have split := restores.split
    rw [waterfall_eq bounded small, seniorNav_covered restores.covered] at split
    have senior := congrArg Prod.fst (Except.ok.inj split)
    exact ⟨⟨restores.covered, restores.share⟩, by simpa using senior⟩
  · rintro ⟨⟨covered, share⟩, none⟩
    refine ⟨covered, ?_, share, ?_⟩
    · rw [waterfall_eq bounded small, seniorNav_covered covered, none, Nat.add_zero]
    · intro now
      have buffer : maintenance * total ≤ (total - book.seniorClaim) * bpsDenom :=
        (Nat.mul_le_mul_right total kept).trans share
      simp only [updateRiskState]
      rw [if_neg (by omega), if_neg (by omega)]

/-- A sync of a book whose senior has no part in the value above its claim. -/
theorem healthy_iff {now : Nat} (bounded : upside.Bounded) (bound : maintenance ≤ bpsDenom) (small : total < u128Bound)
    (held : 0 < book.seniorShares) (leaves : upside.Leaves book.seniorClaim book.seniorPrincipalBasis total) :
    ∃ seniorNav juniorNav,
      waterfall (.seniorJunior hurdle target maintenance upside) total book.seniorClaim book.seniorPrincipalBasis =
        .ok (seniorNav, juniorNav) ∧
      ((book.updateRiskState (.seniorJunior hurdle target maintenance upside) total juniorNav now).riskState = .healthy ↔
        Buffered book.seniorClaim maintenance total) := by
  refine ⟨_, _, waterfall_eq bounded small, ?_⟩
  rw [buffered_iff bound]
  simp only [updateRiskState]
  by_cases short : total < book.seniorClaim
  · rw [if_pos ⟨held, short⟩]
    constructor
    · intro healthy
      split at healthy <;> cases healthy
    · rintro ⟨covered, -⟩
      omega
  · have covered : book.seniorClaim ≤ total := by omega
    have junior : total - seniorNav upside total book.seniorClaim book.seniorPrincipalBasis = total - book.seniorClaim := by
      rw [seniorNav_covered covered, participation_zero.mpr leaves, Nat.add_zero]
    rw [if_neg (by omega), junior]
    by_cases thin : (total - book.seniorClaim) * bpsDenom < maintenance * total
    · have some : 0 < total := Nat.pos_of_mul_pos_left (Nat.zero_lt_of_lt thin)
      rw [if_pos ⟨held, some, thin⟩]
      constructor
      · intro healthy
        cases healthy
      · exact fun buffered => absurd buffered.2 (Nat.not_le_of_lt thin)
    · rw [if_neg (by omega)]
      exact ⟨fun _ => ⟨covered, Nat.le_of_not_lt thin⟩, fun _ => rfl⟩

/-- `accrued_claim_at`: the claim with the hurdle earned up to a time. -/
def accruedClaimAt (cs : CapitalStructure) (book : TrancheBook) (now : Nat) : Nat :=
  book.seniorClaim + earned book.seniorClaim cs.hurdleBps (min (now - book.lastAccrualMs) accrualCapMs)

theorem accrue_claimed {cs : CapitalStructure} {now : Nat} {next : TrancheBook} (ran : book.accrue cs now = .ok next) :
    next = { book with lastAccrualMs := next.lastAccrualMs, seniorClaim := accruedClaimAt cs book now } := by
  have same : cs.hurdleBps = 0 ∨ book.seniorClaim = 0 ∨ now ≤ book.lastAccrualMs →
      accruedClaimAt cs book now = book.seniorClaim := by
    rintro (free | empty | early)
    · rw [accruedClaimAt, free, earned_of_zero (Nat.mul_zero _), Nat.add_zero]
    · rw [accruedClaimAt, empty, earned_of_zero (Nat.zero_mul _)]
    · rw [accruedClaimAt, Nat.sub_eq_zero_of_le early, Nat.zero_min, earned_zero, Nat.add_zero]
  cases cs with
  | untranched =>
    cases pure_ok.mp ran
    rw [same (Or.inl rfl)]
  | seniorJunior hurdle target maintenance upside =>
    simp only [accrue] at ran
    split at ran
    · next early =>
      cases pure_ok.mp ran
      rw [same (Or.inr (Or.inr early))]
    · split at ran
      · next none =>
        cases pure_ok.mp ran
        rw [same (none.imp id Or.inl)]
      · obtain ⟨accrual, cast, ran⟩ := bind_ok.mp ran
        obtain ⟨claim, total, ran⟩ := bind_ok.mp ran
        cases pure_ok.mp ran
        obtain ⟨-, rfl⟩ := fit_ok.mp cast
        obtain ⟨-, rfl⟩ := fit_ok.mp total
        rfl

theorem accrue_returns {cs : CapitalStructure} {now : Nat} (fits : accruedClaimAt cs book now < u128Bound) :
    ∃ next, book.accrue cs now = .ok next := by
  cases cs with
  | untranched => exact ⟨_, rfl⟩
  | seniorJunior hurdle target maintenance upside =>
    simp only [accrue]
    split
    · exact ⟨_, rfl⟩
    · split
      · exact ⟨_, rfl⟩
      · have accrual : earned book.seniorClaim hurdle (min (now - book.lastAccrualMs) accrualCapMs) < u128Bound :=
          Nat.lt_of_le_of_lt (Nat.le_add_left _ _) fits
        exact ⟨_, bind_ok.mpr ⟨_, fit_ok.mpr ⟨accrual, rfl⟩, bind_ok.mpr ⟨_, fit_ok.mpr ⟨fits, rfl⟩, rfl⟩⟩⟩

end TrancheBook

variable {Obj : Type}

/-- What the senior has no part in, over the structure. -/
def CapitalStructure.Leaves (cs : CapitalStructure) (claim basis total : Nat) : Prop :=
  match cs with
  | .untranched => True
  | .seniorJunior _ _ _ upside => upside.Leaves claim basis total

/-- The maintenance buffer above a claim, over the structure. -/
def CapitalStructure.Maintains (cs : CapitalStructure) (claim total : Nat) : Prop :=
  match cs with
  | .untranched => True
  | .seniorJunior _ _ maintenance _ => Buffered claim maintenance total

/-- A vault after a reset that brought `deposit` to the value `nav`: the new generation has what
is above the claim, the next sync, which comes `later`, is possible and finds a healthy book, and no
smaller deposit than the protocol's minimum would have done. -/
structure TradingVault.Recapitalized (v : TradingVault Obj) (nav deposit later : Nat) : Prop where
  restores : v.book.Restores v.capital (nav + deposit)
  accrues : ∃ accrued, v.book.accrue v.capital later = .ok accrued
  synced : ∀ cfg next seniorNav juniorNav, v.syncCapital cfg (nav + deposit) later = .ok (next, seniorNav, juniorNav) →
    next.book.riskState = .healthy
  least : ∃ least, minResetDeposit nav v.book.seniorClaim v.capital.targetJuniorBps = .ok least ∧
    IsLeast {other | nav + other < u128Bound ∧ v.book.Restores v.capital (nav + other)} least

namespace TradingVault

variable {v next : TradingVault Obj} {hurdle target maintenance : Nat} {upside : SeniorUpside}

theorem syncCapital_book {cfg : VaultProtocolConfig} {nav now seniorNav juniorNav : Nat}
    (ran : v.syncCapital cfg nav now = .ok (next, seniorNav, juniorNav)) :
    ∃ accrued, v.book.accrue v.capital now = .ok accrued ∧
      TrancheBook.waterfall v.capital nav accrued.seniorClaim accrued.seniorPrincipalBasis = .ok (seniorNav, juniorNav) ∧
      next.capital = v.capital ∧ next.book = accrued.updateRiskState v.capital nav juniorNav now := by
  simp only [syncCapital, bind_ok, pure_ok, Prod.mk.injEq, Prod.exists] at ran
  obtain ⟨accrued, accrues, _, _, falls, _, _, rfl, rfl, rfl⟩ := ran
  exact ⟨accrued, accrues, falls, rfl, rfl⟩

/-- Where the curator's share is not enforced, a sync needs the accrual and the waterfall only. -/
theorem syncCapital_of {cfg : VaultProtocolConfig} {nav now seniorNav juniorNav : Nat} {accrued : TrancheBook}
    (free : cfg.enforceCuratorShare = false) (accrues : v.book.accrue v.capital now = .ok accrued)
    (falls : TrancheBook.waterfall v.capital nav accrued.seniorClaim accrued.seniorPrincipalBasis =
      .ok (seniorNav, juniorNav)) :
    ∃ next, v.syncCapital cfg nav now = .ok (next, seniorNav, juniorNav) ∧
      next.book = accrued.updateRiskState v.capital nav juniorNav now :=
  ⟨_, bind_ok.mpr ⟨_, accrues, bind_ok.mpr ⟨_, falls, bind_ok.mpr ⟨false, if_pos (Or.inr (Or.inl free)), rfl⟩⟩⟩, rfl⟩

theorem seniors_of_proposal {book : TrancheBook} {cs : CapitalStructure} {nav juniorNav now : Nat}
    {proposal : JuniorResetProposal} (tranched : cs.isTranched = true)
    (pending : (book.updateRiskState cs nav juniorNav now).resetProposal = some proposal) : 0 < book.seniorShares := by
  cases cs with
  | untranched => cases tranched
  | seniorJunior hurdle target maintenance upside =>
    simp only [TrancheBook.updateRiskState] at pending
    split at pending
    · next impaired => exact impaired.1
    · cases pending

theorem executeJuniorReset_terms {cfg : VaultProtocolConfig} {lp : DomainState} {sender : Address} {a : Appraisal Obj}
    {t : TypeName} {amount now : Nat} {id : ID} (tranched : v.capital.isTranched = true)
    (ran : v.executeJuniorReset cfg lp sender a t amount now id = .ok next) :
    ∃ nav accrued required, v.consumeAppraisal a = .ok nav ∧ v.book.accrue v.capital now = .ok accrued ∧
      minResetDeposit nav accrued.seniorClaim v.capital.targetJuniorBps = .ok required ∧ required ≤ amount ∧
      nav + amount < u128Bound ∧ 0 < accrued.seniorShares ∧ next.capital = v.capital ∧
      next.book.seniorClaim = accrued.seniorClaim ∧ next.book.seniorPrincipalBasis = accrued.seniorPrincipalBasis ∧
      next.book.lastAccrualMs = accrued.lastAccrualMs ∧ next.book.seniorShares = accrued.seniorShares := by
  simp only [executeJuniorReset, bind_ok, check_ok, exists_const, Prod.exists, pure_ok, addU128, fit_ok] at ran
  obtain ⟨_, _, _, _, _, nav, consumed, synced, seniorNav, juniorNav, syncs, proposal, proposed, _, _, _, _, required,
    required', total, ⟨small, rfl⟩, ⟨enough, _⟩, purse, stored, minted, _, book, resets, _, _, rfl⟩ := ran
  obtain ⟨accrued, accrues, falls, capital, updated⟩ := syncCapital_book syncs
  obtain ⟨claim, basis, last⟩ := TrancheBook.updateRiskState_claim accrued v.capital nav juniorNav now
  obtain ⟨shares, -⟩ := TrancheBook.updateRiskState_supply accrued v.capital nav juniorNav now
  have pending := need_ok.mp proposed
  rw [updated] at pending
  obtain ⟨_, _, made⟩ := bind_ok.mp resets
  cases pure_ok.mp made
  rw [capital, updated, claim] at required'
  exact ⟨nav, accrued, required, consumed, accrues, required', enough, small, seniors_of_proposal tranched pending, capital,
    by rw [← claim, ← updated], by rw [← basis, ← updated], by rw [← last, ← updated], by rw [← shares, ← updated]⟩

theorem synced_iff (cfg : VaultProtocolConfig) {total : Nat} (later : Nat)
    (capital : v.capital = .seniorJunior hurdle target maintenance upside) (bounded : upside.Bounded)
    (bound : maintenance ≤ bpsDenom) (small : total < u128Bound) (held : 0 < v.book.seniorShares)
    (leaves : upside.Leaves v.book.seniorClaim v.book.seniorPrincipalBasis total) :
    ((∃ accrued, v.book.accrue v.capital later = .ok accrued) ∧
      ∀ cfg next seniorNav juniorNav, v.syncCapital cfg total later = .ok (next, seniorNav, juniorNav) →
        next.book.riskState = .healthy) ↔
      Buffered (TrancheBook.accruedClaimAt v.capital v.book later) maintenance total := by
  have found : ∀ {accrued : TrancheBook}, v.book.accrue v.capital later = .ok accrued →
      accrued.seniorClaim = TrancheBook.accruedClaimAt v.capital v.book later ∧
      ∃ seniorNav juniorNav, TrancheBook.waterfall v.capital total accrued.seniorClaim accrued.seniorPrincipalBasis =
          .ok (seniorNav, juniorNav) ∧
        ((accrued.updateRiskState v.capital total juniorNav later).riskState = .healthy ↔
          Buffered accrued.seniorClaim maintenance total) := by
    intro accrued accrues
    rw [TrancheBook.accrue_claimed accrues, capital]
    exact ⟨rfl, TrancheBook.healthy_iff bounded bound small held (leaves.grow (Nat.le_add_right _ _))⟩
  constructor
  · rintro ⟨⟨accrued, accrues⟩, healthy⟩
    obtain ⟨claim, seniorNav, juniorNav, falls, sound⟩ := found accrues
    have free : ({ cfg with enforceCuratorShare := false } : VaultProtocolConfig).enforceCuratorShare = false := rfl
    obtain ⟨next, syncs, updated⟩ := syncCapital_of free accrues falls
    rw [← claim, ← sound, ← updated]
    exact healthy _ _ _ _ syncs
  · intro buffered
    have covered := ((buffered_iff bound).mp buffered).1
    refine ⟨TrancheBook.accrue_returns (by omega), fun cfg next seniorNav juniorNav syncs => ?_⟩
    obtain ⟨accrued, accrues, falls, -, updated⟩ := syncCapital_book syncs
    obtain ⟨claim, _, _, falls', sound⟩ := found accrues
    cases falls.symm.trans falls'
    rw [updated, sound, claim]
    exact buffered

/-- A sufficient deposit restores the vault exactly when the senior has no part in what it brings and
the hurdle leaves the maintenance buffer until the next sync. -/
theorem recapitalized_iff (cfg : VaultProtocolConfig) {nav amount least later : Nat}
    (capital : v.capital = .seniorJunior hurdle target maintenance upside) (bounded : upside.Bounded)
    (bound : target < bpsDenom) (kept : maintenance ≤ target)
    (required : minResetDeposit nav v.book.seniorClaim target = .ok least) (enough : least ≤ amount)
    (small : nav + amount < u128Bound) (held : 0 < v.book.seniorShares) :
    v.Recapitalized nav amount later ↔
      upside.Leaves v.book.seniorClaim v.book.seniorPrincipalBasis (nav + amount) ∧
        Buffered (TrancheBook.accruedClaimAt v.capital v.book later) maintenance (nav + amount) := by
  have restores : ∀ other ≤ amount, v.book.Restores v.capital (nav + other) ↔
      Buffered v.book.seniorClaim target (nav + other) ∧
        upside.Leaves v.book.seniorClaim v.book.seniorPrincipalBasis (nav + other) := by
    intro other less
    rw [capital]
    exact TrancheBook.restores_iff bounded bound.le kept (by omega)
  have minimal := minResetDeposit_least bound required
  have synced := fun leaves => synced_iff cfg later capital bounded (kept.trans bound.le) small held leaves
  constructor
  · intro recapitalized
    have leaves := ((restores amount le_rfl).mp recapitalized.restores).2
    exact ⟨leaves, (synced leaves).mp ⟨recapitalized.accrues, recapitalized.synced⟩⟩
  · rintro ⟨leaves, buffered⟩
    have reached : Buffered v.book.seniorClaim target (nav + amount) :=
      minimal.1.mono (Nat.add_le_add_left enough nav)
    obtain ⟨accrues, healthy⟩ := (synced leaves).mpr buffered
    refine ⟨(restores amount le_rfl).mpr ⟨reached, leaves⟩, accrues, healthy, least, ?_, ⟨?_, ?_⟩, ?_⟩
    · rw [capital]
      exact required
    · show nav + least < u128Bound
      omega
    · exact (restores least enough).mpr ⟨minimal.1, leaves.anti (Nat.add_le_add_left enough nav)⟩
    · rintro other ⟨fits, again⟩
      rw [capital, TrancheBook.restores_iff bounded bound.le kept fits] at again
      exact minimal.2 again.1

end TradingVault

namespace World

variable {w after : World Obj}

theorem Reachable.structured (reached : w.Reachable) : ∃ cfg, assertStructure cfg w.vault.capital = .ok () := by
  obtain ⟨g, actions, played⟩ := reached
  obtain ⟨created, creates, ran⟩ := bind_ok.mp played
  have capital := exec_invariant step (fun state => state.vault.capital = created.vault.capital)
    (fun _ _ _ before moved => (step_moves moved).capital.trans before) rfl ran
  obtain ⟨_, _, creates⟩ := bind_ok.mp creates
  obtain ⟨_, checked, creates⟩ := bind_ok.mp creates
  split at creates
  · cases pure_ok.mp creates
    exact ⟨g.env.cfg, capital ▸ checked⟩
  · cases creates

theorem assertStructure_bounds {cfg : VaultProtocolConfig} {hurdle target maintenance : Nat} {upside : SeniorUpside}
    (ran : assertStructure cfg (.seniorJunior hurdle target maintenance upside) = .ok ()) :
    target < bpsDenom ∧ maintenance ≤ target := by
  obtain ⟨-, ran⟩ := check_bind_ok.mp ran
  obtain ⟨⟨-, bound⟩, ran⟩ := check_bind_ok.mp ran
  obtain ⟨⟨-, kept⟩, -⟩ := check_bind_ok.mp ran
  exact ⟨bound, kept⟩

/-- An executed reset restores the target, up to a sync that comes `later`, exactly when the senior has no part in
the value above its claim and the claim accrued until then leaves the maintenance buffer. -/
theorem junior_reset_restores_iff {index : Nat} {sender : Address} {t : TypeName} {amount : Nat} {id : ID} (later : Nat)
    (reached : w.Reachable) (ran : w.step (.use index (.executeJuniorReset sender t amount id)) = .ok after) :
    ∃ a nav accrued, w.appraisals[index]? = some a ∧ w.vault.consumeAppraisal a = .ok nav ∧
      w.vault.book.accrue w.vault.capital w.env.now = .ok accrued ∧
      (after.vault.Recapitalized nav amount later ↔
        w.vault.capital.Leaves accrued.seniorClaim accrued.seniorPrincipalBasis (nav + amount) ∧
          w.vault.capital.Maintains (accrued.accruedClaimAt w.vault.capital later) (nav + amount)) := by
  have holds := reached.sharesHold
  obtain ⟨cfg, structured⟩ := reached.structured
  obtain ⟨_, pending, _⟩ := step_executed holds.kept.proposal ran rfl
  have tranched : w.vault.capital.isTranched = true := holds.kept.proposal (by rw [pending]; rfl)
  obtain ⟨a, opened, ran⟩ := bind_ok.mp ran
  obtain ⟨vault, executes, ran⟩ := bind_ok.mp ran
  cases pure_ok.mp ran
  obtain ⟨nav, accrued, required, consumed, accrues, minimum, enough, small, held, capital, claim, basis, last, shares⟩ :=
    TradingVault.executeJuniorReset_terms tranched executes
  refine ⟨a, nav, accrued, need_ok.mp opened, consumed, accrues, ?_⟩
  have claimAt : TrancheBook.accruedClaimAt w.vault.capital accrued later =
      TrancheBook.accruedClaimAt vault.capital vault.book later := by
    rw [TrancheBook.accruedClaimAt, TrancheBook.accruedClaimAt, capital, claim, last]
  rw [claimAt]
  cases kind : w.vault.capital with
  | untranched =>
    rw [kind] at tranched
    cases tranched
  | seniorJunior hurdle target maintenance upside =>
    rw [kind] at structured minimum capital
    obtain ⟨bound, kept⟩ := assertStructure_bounds structured
    rw [← claim] at minimum
    rw [← shares] at held
    rw [← claim, ← basis]
    exact TradingVault.recapitalized_iff cfg capital (assertStructure_valid structured).bounded bound kept minimum enough small
      held

end World

namespace Sample

/-- A loss wipes the juniors out, and a reset is proposed and becomes due. -/
def wiping : List (Action Unit) :=
  deposit 1000000 .junior 10 ++ deposit 500000 .senior 11 ++
    [.call (.session (.curator 2) "Adapter" [.take "USDC" 1200000]), .beginAppraisal "USDC", .use 0 .proposeJuniorReset,
      .nextTransaction (1000 + resetSeasoningMs), .beginAppraisal "USDC"]

def resetting : Action Unit := .use 0 (.executeJuniorReset 7 "USDC" 1000000 12)

end Sample

/-- Without a part of the senior in the residual, the reset restores the vault up to a sync a day later. -/
theorem World.junior_reset_restores_preferred :
    ∃ w : World Unit, World.play (Sample.genesis (.seniorJunior 500 2000 1000 .preferredOnly)) Sample.wiping = .ok w ∧
      ∃ after, w.step Sample.resetting = .ok after ∧
        after.vault.Recapitalized 300000 1000000 (w.env.now + 86400000) := by
  refine exists_ok (fun w => decide ((w.step Sample.resetting).toOption.isSome ∧
    w.vault.capital = .seniorJunior 500 2000 1000 .preferredOnly) &&
    w.appraisals[0]?.any (fun a => decide ((w.vault.consumeAppraisal a).toOption = some 300000)) &&
    (w.vault.book.accrue w.vault.capital w.env.now).toOption.any fun accrued =>
      decide (accrued.accruedClaimAt w.vault.capital (w.env.now + 86400000) * bpsDenom ≤ 1300000 * (bpsDenom - 1000)))
    (by decide +kernel) fun w played found => ?_
  simp only [Bool.and_eq_true] at found
  obtain ⟨⟨found, appraised⟩, room⟩ := found
  obtain ⟨executes, preferred⟩ := of_decide_eq_true found
  cases ran : w.step Sample.resetting with
  | error why =>
    rw [ran] at executes
    cases executes
  | ok after =>
    obtain ⟨a, nav, accrued, opened, consumed, accrues, restores⟩ :=
      World.junior_reset_restores_iff (w.env.now + 86400000) ⟨_, _, played⟩ ran
    obtain ⟨a', opened', worth⟩ := (Option.any_eq_true _ _).mp appraised
    cases opened.symm.trans opened'
    have value := of_decide_eq_true worth
    rw [consumed] at value
    cases value
    obtain ⟨accrued', accrues', room⟩ := (Option.any_eq_true _ _).mp room
    rw [accrues] at accrues'
    cases accrues'
    refine ⟨after, rfl, restores.mpr ⟨?_, ?_⟩⟩
    · rw [preferred]
      trivial
    · have buffered := of_decide_eq_true room
      rw [preferred] at buffered ⊢
      exact buffered

/-- With half of the residual for the senior, the new generation gets 399761 of the 799521 above
the claim. -/
theorem World.junior_reset_shared :
    ∃ w : World Unit, World.play (Sample.genesis (.seniorJunior 500 2000 1000 (.uncappedParticipating 5000)))
        Sample.wiping = .ok w ∧
      ∃ after, w.step Sample.resetting = .ok after ∧
        (∃ a, w.appraisals[0]? = some a ∧ w.vault.consumeAppraisal a = .ok 300000) ∧
        ∀ later, ¬ after.vault.Recapitalized 300000 1000000 later := by
  refine exists_ok (fun w => (w.step Sample.resetting).toOption.any fun after =>
    decide ((TrancheBook.waterfall after.vault.capital 1300000 after.vault.book.seniorClaim
      after.vault.book.seniorPrincipalBasis).toOption = some (900239, 399761) ∧ after.vault.book.seniorClaim = 500479 ∧
      w.appraisals[0]?.any fun a => decide ((w.vault.consumeAppraisal a).toOption = some 300000))) (by decide +kernel) ?_
  intro w _ found
  cases ran : w.step Sample.resetting with
  | error why =>
    rw [ran] at found
    cases found
  | ok after =>
    rw [ran] at found
    obtain ⟨shared, claim, appraised⟩ := of_decide_eq_true found
    obtain ⟨a, opened, worth⟩ := (Option.any_eq_true _ _).mp appraised
    refine ⟨after, rfl, ⟨a, opened, ?_⟩, ?_⟩
    · have value := of_decide_eq_true worth
      cases consumes : w.vault.consumeAppraisal a with
      | error why =>
        rw [consumes] at value
        cases value
      | ok nav =>
        rw [consumes] at value
        exact congrArg _ (Option.some.inj value)
    · intro later recapitalized
      rw [recapitalized.restores.split, claim] at shared
      exact absurd shared (by decide)

end SuiOptions.Vault
