import SuiOptions.Lib.ProRata
import SuiOptions.Vault.Supply

/-! What a paid request takes out of a vault.

The batch's ratio is a rate in the sense of `ProRata`: the value of the tranche
with one virtual unit over its supply with the virtual shares. A paid request
is an exit at that rate.
-/

set_option autoImplicit false

namespace SuiOptions.Vault

open Execution Move
open Exchange (ID Address DomainState)

/-! ### Share math -/

theorem claimValue_ok {shares nav supply offset value : Nat} (ran : claimValue shares nav supply offset = .ok value) :
    value * (supply + offset) ≤ shares * (nav + 1) ∧ value < u64Bound := by
  simp only [claimValue, addU128, castU64, div_ok, bind_ok, fit_ok] at ran
  obtain ⟨_, ⟨_, rfl⟩, _, ⟨_, rfl⟩, _, ⟨_, rfl⟩, small, rfl⟩ := ran
  exact ⟨Nat.div_mul_le_self _ _, small⟩

theorem sharesForValue_ok {value nav supply offset shares : Nat}
    (ran : sharesForValue value nav supply offset = .ok shares) : shares * (nav + 1) ≤ value * (supply + offset) := by
  simp only [sharesForValue, addU128, castU128, bind_ok, fit_ok] at ran
  obtain ⟨_, ⟨_, rfl⟩, _, ⟨_, rfl⟩, _, rfl⟩ := ran
  exact Nat.div_mul_le_self _ _

/-- The fee comes out of the profit, and the protocol's cut out of the fee. -/
theorem crystallize_ok {value basis curatorFeeBps protocolFeeBps : Nat} {fees : Crystallized}
    (ran : crystallize value basis curatorFeeBps protocolFeeBps = .ok fees) :
    fees.grossFee = (value - basis) * curatorFeeBps / bpsDenom ∧ fees.protocolCut + fees.curatorNet = fees.grossFee := by
  simp only [crystallize, castU64, bind_ok, fit_ok, sub_ok, pure_ok] at ran
  obtain ⟨_, ⟨_, rfl⟩, _, ⟨_, rfl⟩, _, ⟨enough, rfl⟩, rfl⟩ := ran
  exact ⟨rfl, Nat.add_sub_cancel' enough⟩

theorem bps_le (amount : Nat) {bps : Nat} (bound : bps ≤ bpsDenom) : amount * bps / bpsDenom ≤ amount :=
  Nat.div_le_of_le_mul (by rw [Nat.mul_comm bpsDenom]; exact Nat.mul_le_mul_left _ bound)

/-- Within the bounds of the configuration, fees can always be taken. -/
theorem crystallize_of {value curatorFeeBps protocolFeeBps : Nat} (basis : Nat) (small : value < u64Bound)
    (curator : curatorFeeBps ≤ bpsDenom) (protocol : protocolFeeBps ≤ bpsDenom) :
    ∃ fees, crystallize value basis curatorFeeBps protocolFeeBps = .ok fees ∧ fees.grossFee ≤ value := by
  have gross : (value - basis) * curatorFeeBps / bpsDenom ≤ value := Nat.le_trans (bps_le _ curator) (Nat.sub_le _ _)
  have cut := bps_le ((value - basis) * curatorFeeBps / bpsDenom) protocol
  refine ⟨⟨value - basis, (value - basis) * curatorFeeBps / bpsDenom,
    (value - basis) * curatorFeeBps / bpsDenom * protocolFeeBps / bpsDenom,
    (value - basis) * curatorFeeBps / bpsDenom -
      (value - basis) * curatorFeeBps / bpsDenom * protocolFeeBps / bpsDenom⟩, ?_, gross⟩
  simp only [crystallize, castU64, fit_of (Nat.lt_of_le_of_lt gross small),
    fit_of (Nat.lt_of_le_of_lt cut (Nat.lt_of_le_of_lt gross small)), sub_of cut, bind, Except.bind]
  rfl

namespace TradingVault

variable {Obj : Type} {v next : TradingVault Obj}

/-! ### Requests -/

/-- A live request is worth its shares at the batch's ratio; what it is not paid goes to the curator. -/
theorem priceRequest_ok {cfg : VaultProtocolConfig} {f : Fulfillment} {request : WithdrawRequest} {priced : Priced}
    (ran : v.priceRequest cfg f request = .ok priced) :
    v.wipedClaim request.tranche request.capitalGeneration = true ∧ priced = ⟨0, 0, 0, 0⟩ ∨
      v.wipedClaim request.tranche request.capitalGeneration = false ∧
        priced.value * (f.supplyOf request.tranche + shareOffset) ≤ request.shares * (f.navOf request.tranche + 1) ∧
        priced.grossFee ≤ priced.value ∧ priced.payout = priced.value - priced.grossFee ∧
        priced.protocolCut ≤ priced.grossFee := by
  unfold priceRequest at ran
  split at ran
  case isTrue wiped => exact Or.inl ⟨wiped, (pure_ok.mp ran).symm⟩
  case isFalse live =>
    simp only [bind_ok, sub_ok, pure_ok] at ran
    obtain ⟨value, valued, fees, crystallizes, _, ⟨enough, rfl⟩, rfl⟩ := ran
    obtain ⟨_, parts⟩ := crystallize_ok crystallizes
    exact Or.inr ⟨Bool.eq_false_iff.mpr live, (claimValue_ok valued).1, enough, rfl, parts ▸ Nat.le_add_right _ _⟩

theorem unitsOf_ok {price amount units : Nat} (ran : unitsOf price amount = .ok units) :
    0 < price ∧ units * price ≤ amount * priceScale := by
  simp only [unitsOf, mulDiv, castU128, castU64, bind_ok, check_ok, exists_const, fit_ok] at ran
  obtain ⟨_, ⟨positive, _, rfl⟩, _, rfl⟩ := ran
  exact ⟨positive, Nat.div_mul_le_self _ _⟩

theorem exitPrice_ok {base price : Nat} (ran : v.exitPrice base = .ok price) : base ≤ price := by
  simp only [exitPrice, mulU128, bind_ok, fit_ok, pure_ok] at ran
  obtain ⟨_, ⟨_, rfl⟩, rfl⟩ := ran
  rw [Nat.le_div_iff_mul_le (by decide)]
  exact Nat.mul_le_mul_left _ (Nat.le_add_right _ _)

/-- Units paid, at the locked price, are worth no more than the amounts they stand for. -/
theorem convert_ok {f : Fulfillment} {p : TypeName} {request : WithdrawRequest} {priced : Priced}
    {payoutUnits cutUnits : Nat} (ran : v.convert f p request priced = .ok (payoutUnits, cutUnits)) :
    ((p = v.config.accountingAsset ∨ v.wipedClaim request.tranche request.capitalGeneration = true) ∧
        payoutUnits = priced.payout ∧ cutUnits = priced.protocolCut) ∨
      p ≠ v.config.accountingAsset ∧ v.wipedClaim request.tranche request.capitalGeneration = false ∧
        ∃ price, f.prices.get? p = some price ∧
          (payoutUnits + cutUnits) * price ≤ (priced.payout + priced.protocolCut) * priceScale := by
  unfold convert at ran
  split at ran
  case isTrue par =>
    simp only [pure_ok, Prod.mk.injEq] at ran
    exact Or.inl ⟨par, ran.1.symm, ran.2.symm⟩
  case isFalse other =>
    simp only [bind_ok, need_ok, pure_ok, Prod.mk.injEq] at ran
    obtain ⟨base, locked, price, raised, _, paid, _, cut, rfl, rfl⟩ := ran
    rw [not_or, Bool.not_eq_true] at other
    refine Or.inr ⟨other.1, other.2, base, locked, ?_⟩
    have higher := exitPrice_ok raised
    have first := (unitsOf_ok paid).2
    have second := (unitsOf_ok cut).2
    calc _ ≤ _ := Nat.mul_le_mul_left _ higher
      _ ≤ _ := by rw [Nat.add_mul, Nat.add_mul]; exact Nat.add_le_add first second

/-- What a live paid request does to the supply of its side, the claims and the purse. -/
structure Exited (v : TradingVault Obj) (f : Fulfillment) (receipt : Receipt) (minted : Nat) (next : TradingVault Obj) :
    Prop where
  exits : ProRata.Exit (f.navOf receipt.request.tranche + 1) (f.supplyOf receipt.request.tranche + shareOffset)
    receipt.request.shares minted (receipt.priced.payout + receipt.priced.protocolCut)
  booked : ∀ code, next.book.sharesOf code + mintOf receipt.request.tranche receipt.request.shares code =
    v.book.sharesOf code + mintOf receipt.request.tranche minted code
  claimed : ∀ code, next.outstanding code + mintOf receipt.request.tranche receipt.request.shares code =
    v.outstanding code + mintOf receipt.request.tranche minted code
  counted : receipt.request.shares ≤ v.outstanding (laneCodeOf receipt.request.tranche)

structure PaidFrom (v : TradingVault Obj) (p : TypeName) (units : Nat) (next : TradingVault Obj) : Prop where
  state : next.state = v.state
  config : next.config = v.config
  capital : next.capital = v.capital
  custody : next.custody = v.custody
  external : next.external = v.external
  settlement : next.settlement = v.settlement
  generation : next.book.activeJuniorGeneration = v.book.activeJuniorGeneration
  enough : units ≤ v.purse.balances p
  balances : next.purse.balances = Function.update v.purse.balances p (v.purse.balances p - units)

theorem mintFee_frame {f : Fulfillment} {tranche : Tranche} {curatorNet : Nat} {id : ID}
    (ran : v.mintFee f tranche curatorNet id = .ok next) :
    ∃ book claims, next = { v with book, claims } ∧ book.activeJuniorGeneration = v.book.activeJuniorGeneration := by
  rcases mintFee_ok ran with rfl | ⟨shares, book, _, booked, credits⟩
  · exact ⟨v.book, v.claims, rfl, rfl⟩
  · obtain ⟨claims, rfl, _⟩ := creditCommitment_ok credits
    exact ⟨book, claims, rfl, (TrancheBook.onDeposit_ok booked).1⟩

theorem Paid.from {cfg : VaultProtocolConfig} {f : Fulfillment} {p : TypeName} {id : ID} {receipt : Receipt}
    (paid : Paid v cfg f p id receipt next) : PaidFrom v p (receipt.cutUnits + receipt.payoutUnits) next := by
  obtain ⟨found, _, _, settled⟩ := paid
  obtain ⟨_, burned, minted, cut, _, burns, mints, cuts, pays⟩ := settleRequest_ok settled
  obtain ⟨purse, rfl, enough, balances, _⟩ := payOut_twice cuts pays
  obtain ⟨book, claims, rfl, generation⟩ := mintFee_frame mints
  rcases burnShares_ok burns with ⟨_, rfl⟩ | ⟨_, _, booked, rfl⟩
  · exact ⟨rfl, rfl, rfl, rfl, rfl, rfl, generation, enough, balances⟩
  · exact ⟨rfl, rfl, rfl, rfl, rfl, rfl, generation.trans (TrancheBook.onFulfill_ok booked).1, enough, balances⟩

theorem Paid.wiped {cfg : VaultProtocolConfig} {f : Fulfillment} {p : TypeName} {id : ID} {receipt : Receipt}
    (paid : Paid v cfg f p id receipt next)
    (wiped : v.wipedClaim receipt.request.tranche receipt.request.capitalGeneration = true) :
    receipt.cutUnits + receipt.payoutUnits = 0 ∧ next.book = v.book ∧ ∀ code, next.outstanding code = v.outstanding code := by
  have nothing : receipt.priced = ⟨0, 0, 0, 0⟩ := by
    rcases priceRequest_ok paid.priced with ⟨_, none⟩ | ⟨live, _⟩
    · exact none
    · cases wiped.symm.trans live
  have units : receipt.payoutUnits = 0 ∧ receipt.cutUnits = 0 := by
    rcases convert_ok paid.converted with ⟨_, payout, cut⟩ | ⟨_, live, _⟩
    · rw [payout, cut, nothing]
      exact ⟨rfl, rfl⟩
    · cases wiped.symm.trans live
  obtain ⟨found, _, _, settled⟩ := paid
  obtain ⟨net, burned, minted, cut, fee, burns, mints, cuts, pays⟩ := settleRequest_ok settled
  obtain ⟨purse, rfl, _, _, _⟩ := payOut_twice cuts pays
  have none : net = 0 := by
    rw [nothing] at fee
    exact (sub_ok.mp fee).2.symm
  rw [mintFee, if_pos none, pure_ok] at mints
  subst mints
  rcases burnShares_ok burns with ⟨_, rfl⟩ | ⟨live, _⟩
  · refine ⟨by omega, rfl, fun code => ?_⟩
    simp only [wipedClaim, decide_eq_true_eq] at wiped
    have none : receipt.request.stake.weight v.book.activeJuniorGeneration code = 0 := Stake.weight_wiped wiped.1 wiped.2
    have left := outstanding_drop (w := { v with queue := v.queue.advanced.drop receipt.seq receipt.request found }) found
      rfl rfl rfl code
    rw [none, Nat.zero_add] at left
    exact left.symm
  · cases wiped.symm.trans live

theorem mintFee_minted {f : Fulfillment} {tranche : Tranche} {curatorNet : Nat} {id : ID} (kept : v.WellKept)
    (kind : v.capital.isTranched = decide (tranche ≠ .untranched))
    (ran : v.mintFee f tranche curatorNet id = .ok next) :
    ∃ minted, minted * (f.navOf tranche + 1) ≤ curatorNet * (f.supplyOf tranche + shareOffset) ∧
      (∀ code, next.book.sharesOf code = v.book.sharesOf code + mintOf tranche minted code) ∧
      ∀ code, next.outstanding code = v.outstanding code + mintOf tranche minted code := by
  rcases mintFee_ok ran with rfl | ⟨shares, book, priced, booked, credits⟩
  · exact ⟨0, by simp, by simp [mintOf], by simp [mintOf]⟩
  · refine ⟨shares, sharesForValue_ok priced, ?_⟩
    obtain ⟨generation, proposal, _, _⟩ := TrancheBook.onDeposit_ok booked
    obtain ⟨claims, rfl, mints⟩ := creditCommitment_ok credits
    have booking : ({ v with book } : TradingVault Obj).WellKept :=
      ⟨by simpa only [generation] using kept.claims, by simpa only [generation] using kept.requests, kept.slots,
        by simpa only [proposal] using kept.proposal⟩
    have weights := (mints booking kind).weights
    simp only [generation] at weights
    refine ⟨TrancheBook.onDeposit_sharesOf booked, fun code => ?_⟩
    simp only [TradingVault.outstanding, outstandingOf, generation, weights code]
    omega

theorem Paid.exited {cfg : VaultProtocolConfig} {f : Fulfillment} {p : TypeName} {id : ID} {receipt : Receipt}
    (paid : Paid v cfg f p id receipt next) (kept : v.WellKept)
    (live : v.wipedClaim receipt.request.tranche receipt.request.capitalGeneration = false) :
    ∃ minted, Exited v f receipt minted next := by
  obtain ⟨found, priced, _, settled⟩ := paid
  obtain ⟨valued, within, payout, _⟩ : receipt.priced.value * (f.supplyOf receipt.request.tranche + shareOffset) ≤
      receipt.request.shares * (f.navOf receipt.request.tranche + 1) ∧
      receipt.priced.grossFee ≤ receipt.priced.value ∧
      receipt.priced.payout = receipt.priced.value - receipt.priced.grossFee ∧
      receipt.priced.protocolCut ≤ receipt.priced.grossFee := by
    rcases priceRequest_ok priced with ⟨wiped, _⟩ | ⟨_, parts⟩
    · -- a wiped claim is not priced
      cases wiped.symm.trans live
    · exact parts
  obtain ⟨net, burned, after, cut, fee, burns, mints, cuts, pays⟩ := settleRequest_ok settled
  obtain ⟨covers, rfl⟩ := sub_ok.mp fee
  obtain ⟨purse, rfl, _, _, _⟩ := payOut_twice cuts pays
  -- the request is a claim of its tranche, and of the current generation if junior
  have sound := kept.requests _ (Table.mem_of_get? found)
  have weight := fun code => sound.weight_live code (by simpa [wipedClaim, WithdrawRequest.stake] using live)
  rcases burnShares_ok burns with ⟨wiped, _⟩ | ⟨_, book, booked, rfl⟩
  · cases wiped.symm.trans live
  obtain ⟨generation, proposal, _, _⟩ := TrancheBook.onFulfill_ok booked
  have lowered := TrancheBook.onFulfill_sharesOf booked
  -- once the request has left, the other claims are as they were
  have left : ({ v with queue := v.queue.advanced.drop receipt.seq receipt.request found, book } : TradingVault Obj).WellKept :=
    ⟨by simpa only [generation] using kept.claims,
      fun entry member => by simpa only [generation] using kept.requests entry (Table.mem_of_mem_remove member), kept.slots,
      by simpa only [proposal] using kept.proposal⟩
  have kind : v.capital.isTranched = decide (receipt.request.tranche ≠ .untranched) := sound.kind
  obtain ⟨minted, cheap, raised, claimed⟩ := mintFee_minted left kind mints
  -- what was outstanding is its weight and the rest
  have total : ∀ code, v.outstanding code = mintOf receipt.request.tranche receipt.request.shares code +
      ({ v with queue := v.queue.advanced.drop receipt.seq receipt.request found, book } : TradingVault Obj).outstanding
        code := by
    intro code
    have same : receipt.request.stake.weight v.book.activeJuniorGeneration code =
        mintOf receipt.request.tranche receipt.request.shares code := weight code
    rw [← same]
    exact outstanding_drop (w := { v with queue := v.queue.advanced.drop receipt.seq receipt.request found, book }) found
      generation rfl rfl code
  -- the rate of the exit, the supplies, the claims, and what there was to burn
  refine ⟨minted, ?_, fun code => ?_, fun code => ?_, ?_⟩
  · have exits := ProRata.Exit.of_parts valued cheap (Nat.le_trans (Nat.sub_le _ _) within)
    have same : receipt.priced.payout + receipt.priced.protocolCut =
        receipt.priced.value - (receipt.priced.grossFee - receipt.priced.protocolCut) := by omega
    rw [same]
    exact exits
  · have first := raised code
    have second := lowered code
    simp only [mintOf] at first ⊢
    dsimp only at first second ⊢
    omega
  · calc _ = after.outstanding code + mintOf receipt.request.tranche receipt.request.shares code := rfl
      _ = _ := by rw [claimed code, total code, Nat.add_right_comm, Nat.add_comm (mintOf _ _ _)]
  · have counted := total (laneCodeOf receipt.request.tranche)
    rw [mintOf, if_pos rfl] at counted
    rw [counted]
    exact Nat.le_add_right _ _

end TradingVault

end SuiOptions.Vault
