import SuiOptions.Vault.Payments
import SuiOptions.Vault.Valuation

/-! The price of a share in a vault without tranches.

At fixed prices, deposits enter and requests leave at a rate no better than the
vault's own: every rounding is for the holders that stay.
-/

set_option autoImplicit false

namespace SuiOptions.Vault

open Execution Move
open Exchange (ID Address DomainState)
open TradingVault

variable {Obj : Type} {v next : TradingVault Obj}

namespace Market

variable (m : Market Obj)

/-- The price of a share, with the virtual unit and the virtual shares, did not fall. -/
def NoLoss (v next : TradingVault Obj) : Prop :=
  ProRata.NoBetter (m.holdings v + 1) (v.book.juniorShares + shareOffset) (m.holdings next + 1)
    (next.book.juniorShares + shareOffset)

theorem NoLoss.refl (v : TradingVault Obj) : m.NoLoss v v := ProRata.NoBetter.refl _ _

theorem NoLoss.trans {m : Market Obj} {last : TradingVault Obj} (early : m.NoLoss v next) (late : m.NoLoss next last) :
    m.NoLoss v last :=
  ProRata.NoBetter.trans (by simp [shareOffset]) early late

/-- Nothing that is worth anything moved. -/
theorem holdings_congr (purse : next.purse = v.purse) (custody : next.custody = v.custody)
    (external : next.external = v.external) (config : next.config = v.config) : m.holdings next = m.holdings v := by
  have cash : m.cash next = m.cash v := by rw [Market.cash, Market.cash, config]; simp only [freeBalance, purse]
  have objects : m.objects next = m.objects v := by rw [Market.objects, Market.objects, custody]
  have outside : m.outside next = m.outside v := by rw [Market.outside, Market.outside, exposure, exposure, external]
  rw [holdings, holdings, cash, objects, outside]

theorem holdings_changed {t : TypeName} (config : next.config = v.config) (custody : next.custody = v.custody)
    (external : next.external = v.external) (others : ∀ u, u ≠ t → next.freeBalance u = v.freeBalance u) :
    m.holdings next + m.worth v.config.accountingAsset t (v.freeBalance t) =
      m.holdings v + m.worth v.config.accountingAsset t (next.freeBalance t) := by
  have cash := m.cash_changed config others
  have objects : m.objects next = m.objects v := by rw [Market.objects, Market.objects, custody]
  have outside : m.outside next = m.outside v := by rw [Market.outside, Market.outside, exposure, exposure, external]
  unfold holdings
  omega

theorem worth_add_le (accounting t : TypeName) (first second : Nat) :
    m.worth accounting t first + m.worth accounting t second ≤ m.worth accounting t (first + second) := by
  unfold worth
  split
  · exact Nat.le_refl _
  · rw [Nat.add_mul]
    exact Nat.div_add_div_le_add_div

/-- Units worth no more than an amount lower the worth of a balance by that amount at most. -/
theorem worth_sub_le {accounting t : TypeName} (balance : Nat) {units amount : Nat} (enough : units ≤ balance)
    (cheap : t = accounting ∧ units ≤ amount ∨ t ≠ accounting ∧ units * m.price t ≤ amount * priceScale) :
    m.worth accounting t balance ≤ m.worth accounting t (balance - units) + amount := by
  obtain ⟨left, rfl⟩ := Nat.exists_eq_add_of_le enough
  rw [Nat.add_sub_cancel_left]
  unfold worth
  rcases cheap with ⟨par, within⟩ | ⟨other, within⟩
  · rw [if_pos par, if_pos par]
    omega
  · rw [if_neg other, if_neg other]
    calc (units + left) * m.price t / priceScale
        ≤ (left * m.price t + amount * priceScale) / priceScale := by
          apply Nat.div_le_div_right
          rw [Nat.add_mul]
          omega
      _ = left * m.price t / priceScale + amount := Nat.add_mul_div_right _ _ (by decide)

/-! ### Deposits -/

theorem depositValue_le {cfg : VaultProtocolConfig} {t : TypeName} {amount value now : Nat}
    {att : Option PriceAttestation} (priced : ∀ x ∈ att, x.price = m.price t)
    (ran : v.depositValue cfg t amount att now = .ok value) : value ≤ m.worth v.config.accountingAsset t amount := by
  unfold depositValue at ran
  unfold worth
  split at ran
  case isTrue par =>
    simp only [bind_ok, check_ok, exists_const, pure_ok] at ran
    rw [if_pos par, ran.2]
  case isFalse other =>
    simp only [mulDiv, castU128, castU64, mulU128, bind_ok, need_ok, check_ok, exists_const, fit_ok] at ran
    obtain ⟨x, given, _, _, _, ⟨_, _, rfl⟩, _, ⟨_, rfl⟩, _, _, rfl⟩ := ran
    rw [if_neg other, ← priced x given]
    exact bps_le _ (Nat.sub_le _ _)

/-- What a deposit adds: shares within their price, and holdings beyond the credited value. -/
structure Added (m : Market Obj) (v : TradingVault Obj) (value shares : Nat) (next : TradingVault Obj) : Prop where
  priced : shares * (m.holdings v + 1) ≤ value * (v.book.juniorShares + shareOffset)
  grown : m.holdings v + value ≤ m.holdings next
  booked : next.book.juniorShares = v.book.juniorShares + shares

theorem Added.noLoss {m : Market Obj} {value shares : Nat} (added : m.Added v value shares next) : m.NoLoss v next := by
  have supply : next.book.juniorShares + shareOffset = v.book.juniorShares + shareOffset + shares := by
    rw [added.booked]
    omega
  have grown := added.grown
  unfold NoLoss
  rw [supply]
  exact ProRata.entry_rate added.priced (by omega)

theorem depositInternal_added {cfg : VaultProtocolConfig} {lp : DomainState} {sender : Address} {a : Appraisal Obj}
    {t : TypeName} {amount now navAfter : Nat} {att : Option PriceAttestation} {tranche : Tranche} {id : ID}
    {position : VaultPosition} (untranched : v.capital = .untranched)
    (worth : v.consumeAppraisal a = .ok (m.holdings v)) (priced : ∀ x ∈ att, x.price = m.price t)
    (ran : v.depositInternal cfg lp sender a t amount att tranche now id = .ok (next, position, navAfter)) :
    ∃ value, v.depositValue cfg t amount att now = .ok value ∧ m.Added v value position.shares next := by
  obtain ⟨_, kind, value, nav, synced, seniorNav, juniorNav, valued, consumed, syncs, issued⟩ := depositInternal_ok ran
  cases worth.symm.trans consumed
  rw [untranched] at kind
  have plain : tranche = .untranched := by simpa [CapitalStructure.isTranched] using kind
  subst plain
  have frame := syncCapital_frame syncs
  have same := m.holdings_congr frame.purse frame.custody frame.external frame.config
  have supply : synced.book.supplyOf .untranched = v.book.juniorShares := frame.supply.junior
  refine ⟨value, valued, ?_, ?_, ?_⟩
  · have shares := sharesForValue_ok issued.priced
    rw [supply] at shares
    exact shares
  · obtain ⟨_, balances⟩ := Purse.putBalanceInternal_ok issued.stored
    have changed := m.holdings_changed (t := t) issued.config issued.custody issued.external fun u other => by
      rw [freeBalance, balances, Function.update_of_ne other, freeBalance]
    have after : next.freeBalance t = synced.freeBalance t + amount := by
      rw [freeBalance, balances, Function.update_self, freeBalance]
    have split := m.worth_add_le synced.config.accountingAsset t (synced.freeBalance t) amount
    have within := m.depositValue_le priced valued
    rw [← frame.config] at within
    rw [after] at changed
    omega
  · obtain ⟨_, _, _, junior⟩ := TrancheBook.onDeposit_ok issued.booked
    rw [junior, frame.supply.junior]
    rfl

/-! ### Batches -/

/-- A batch whose locked prices are the market's. -/
def Locks (f : Fulfillment) : Prop := ∀ p price, f.prices.get? p = some price → price = m.price p

theorem lockPrices_locks {cfg : VaultProtocolConfig} {now : Nat} {atts : List PriceAttestation}
    {prices locked : Table TypeName Nat} (priced : ∀ x ∈ atts, x.price = m.price x.asset)
    (before : ∀ entry ∈ prices, entry.2 = m.price entry.1) (ran : v.lockPrices cfg now atts prices = .ok locked) :
    ∀ entry ∈ locked, entry.2 = m.price entry.1 := by
  induction atts generalizing prices with
  | nil =>
    rw [lockPrices, pure_ok] at ran
    subst ran
    exact before
  | cons att rest ih =>
    simp only [lockPrices, assertAttestationFresh, bind_ok, check_ok, exists_const] at ran
    obtain ⟨_, _, _, ran⟩ := ran
    refine ih (fun x member => priced x (List.mem_cons_of_mem _ member)) (fun entry member => ?_) ran
    rcases List.mem_append.mp member with old | new
    · exact before entry old
    · rw [List.mem_singleton.mp new]
      exact priced att List.mem_cons_self

/-- A batch that pays no better than the vault's own rate. -/
structure Fair (m : Market Obj) (f : Fulfillment) (v : TradingVault Obj) : Prop where
  untranched : v.capital = .untranched
  holds : v.SharesHold
  rate : ProRata.NoBetter (f.juniorNav + 1) (f.juniorSupply + shareOffset) (m.holdings v + 1)
    (v.book.juniorShares + shareOffset)

theorem beginFulfillment_fair {cfg : VaultProtocolConfig} {a : Appraisal Obj} {atts : List PriceAttestation} {now : Nat}
    {f : Fulfillment} (untranched : v.capital = .untranched) (holds : v.SharesHold)
    (worth : v.consumeAppraisal a = .ok (m.holdings v)) (priced : ∀ x ∈ atts, x.price = m.price x.asset)
    (ran : v.beginFulfillment cfg a atts now = .ok (next, f)) : m.Locks f ∧ m.Fair f next ∧ m.NoLoss v next := by
  obtain ⟨_, nav, seniorNav, juniorNav, prices, consumed, syncs, locks, rfl⟩ := beginFulfillment_ok ran
  cases worth.symm.trans consumed
  have frame := syncCapital_frame syncs
  have same := m.holdings_congr frame.purse frame.custody frame.external frame.config
  have plain : next.capital = .untranched := frame.capital.trans untranched
  refine ⟨fun p price found => ?_, ⟨plain, holds.synced syncs, ?_⟩, ?_⟩
  · exact m.lockPrices_locks priced (by simp) locks _ (Table.mem_of_get? found)
  · rw [same, plain]
    exact ProRata.NoBetter.refl _ _
  · unfold NoLoss
    rw [same, frame.supply.junior]
    exact ProRata.NoBetter.refl _ _

theorem convert_cheap {f : Fulfillment} {p : TypeName} {request : WithdrawRequest} {priced : Priced}
    {payoutUnits cutUnits : Nat} (locks : m.Locks f)
    (live : v.wipedClaim request.tranche request.capitalGeneration = false)
    (ran : v.convert f p request priced = .ok (payoutUnits, cutUnits)) :
    p = v.config.accountingAsset ∧ cutUnits + payoutUnits ≤ priced.payout + priced.protocolCut ∨
      p ≠ v.config.accountingAsset ∧
        (cutUnits + payoutUnits) * m.price p ≤ (priced.payout + priced.protocolCut) * priceScale := by
  rcases convert_ok ran with ⟨par | wiped, rfl, rfl⟩ | ⟨other, _, price, found, cheap⟩
  · exact Or.inl ⟨par, by omega⟩
  · cases wiped.symm.trans live
  · rw [locks p price found, Nat.add_comm payoutUnits] at cheap
    exact Or.inr ⟨other, cheap⟩

theorem fulfillNext_fair {cfg : VaultProtocolConfig} {f : Fulfillment} {p : TypeName} {now : Nat} {id : ID}
    {outcome : Option Receipt} (locks : m.Locks f) (fair : m.Fair f v)
    (ran : v.fulfillNext cfg f p now id = .ok (next, outcome)) : m.Fair f next ∧ m.NoLoss v next := by
  have holds := fulfillNext_sharesHold fair.holds ran
  rcases fulfillNext_ok ran with ⟨rfl, _⟩ | ⟨receipt, _, paid⟩
  · have same : m.holdings v.advanceLanes = m.holdings v := m.holdings_congr rfl rfl rfl rfl
    refine ⟨⟨fair.untranched, holds, same ▸ fair.rate⟩, ?_⟩
    unfold NoLoss
    rw [same]
    exact ProRata.NoBetter.refl _ _
  have frame := paid.from
  have sound := fair.holds.kept.requests _ (Table.mem_of_get? paid.found)
  have plain : receipt.request.tranche = .untranched := by
    have kind := sound.kind
    rw [fair.untranched] at kind
    exact not_not.mp (of_decide_eq_false kind.symm)
  have live : v.wipedClaim receipt.request.tranche receipt.request.capitalGeneration = false := by
    simp [wipedClaim, plain]
  obtain ⟨minted, exited⟩ := paid.exited fair.holds.kept live
  have exits := exited.exits
  rw [plain] at exits
  -- the exit at the batch's rate is one at the vault's, which is at least as good
  have better := exits.better (Nat.succ_pos _) (by simp [shareOffset]) fair.rate
  have moved : next.book.juniorShares + shareOffset + receipt.request.shares =
      v.book.juniorShares + shareOffset + minted := by
    have booked := exited.booked .junior
    simp only [plain, mintOf, laneCodeOf, TrancheBook.sharesOf] at booked
    dsimp at booked
    omega
  have left : m.holdings v + 1 ≤ m.holdings next + 1 + (receipt.priced.payout + receipt.priced.protocolCut) := by
    have changed := m.holdings_changed (t := p) frame.config frame.custody frame.external fun u other => by
      rw [freeBalance, frame.balances, Function.update_of_ne other, freeBalance]
    have after : next.freeBalance p = v.freeBalance p - (receipt.cutUnits + receipt.payoutUnits) := by
      rw [freeBalance, frame.balances, Function.update_self, freeBalance]
    have lower := m.worth_sub_le (v.freeBalance p) frame.enough (m.convert_cheap locks live paid.converted)
    rw [← after] at lower
    omega
  have loss : m.NoLoss v next := better.rate moved left
  exact ⟨⟨frame.capital.trans fair.untranched, holds, fair.rate.trans (by simp [shareOffset]) loss⟩, loss⟩

/-! ### Round trips -/

/-- Exiting shares in a batch takes out at most a bound, in whatever asset. -/
def Returns (v : TradingVault Obj) (f : Fulfillment) (shares bound : Nat) : Prop :=
  ∀ cfg request p priced payoutUnits cutUnits, request.tranche = .untranched → request.shares = shares →
    v.priceRequest cfg f request = .ok priced → v.convert f p request priced = .ok (payoutUnits, cutUnits) →
      m.worth v.config.accountingAsset p (cutUnits + payoutUnits) ≤ bound

theorem Returns.of_value {f : Fulfillment} {shares bound : Nat} (locks : m.Locks f)
    (value : ∀ got, got * (f.juniorSupply + shareOffset) ≤ shares * (f.juniorNav + 1) → got ≤ bound) :
    m.Returns v f shares bound := by
  intro cfg request p priced payoutUnits cutUnits plain same prices converts
  have live : v.wipedClaim request.tranche request.capitalGeneration = false := by simp [wipedClaim, plain]
  obtain ⟨valued, within⟩ : priced.value * (f.juniorSupply + shareOffset) ≤ shares * (f.juniorNav + 1) ∧
      priced.payout + priced.protocolCut ≤ priced.value := by
    rcases priceRequest_ok prices with ⟨wiped, _⟩ | ⟨_, valued, _, payout, cut⟩
    · cases wiped.symm.trans live
    · rw [plain, same] at valued
      exact ⟨valued, by omega⟩
  have lower := m.worth_sub_le (cutUnits + payoutUnits) (Nat.le_refl _) (m.convert_cheap locks live converts)
  rw [Nat.sub_self, m.worth_zero] at lower
  have got := value _ valued
  omega

/-- Shares sold at the rate they were bought at return the credited value at most. -/
theorem Added.returns {m : Market Obj} {f : Fulfillment} {value shares : Nat} (added : m.Added v value shares next)
    (locks : m.Locks f) (nav : f.juniorNav = m.holdings v) (supply : f.juniorSupply = v.book.juniorShares) :
    m.Returns next f shares value := by
  refine Returns.of_value m locks fun got sold => ?_
  rw [nav, supply] at sold
  exact ProRata.resale_le (by simp [shareOffset]) added.priced sold

theorem Added.returns_after {m : Market Obj} {f : Fulfillment} {value shares : Nat} (added : m.Added v value shares next)
    (locks : m.Locks f) (nav : f.juniorNav = m.holdings next) (supply : f.juniorSupply = next.book.juniorShares) :
    m.Returns next f shares (m.holdings next - m.holdings v) := by
  have grown := added.grown
  refine Returns.of_value m locks fun got sold => ?_
  refine ProRata.resale_after_le (by simp [shareOffset]) added.priced (by omega) ?_
  calc got * (v.book.juniorShares + shareOffset + shares) = got * (f.juniorSupply + shareOffset) := by
        rw [supply, added.booked, Nat.add_right_comm]
    _ ≤ shares * (f.juniorNav + 1) := sold
    _ = shares * (m.holdings v + 1 + (m.holdings next - m.holdings v)) := by
        rw [nav]
        congr 1
        omega

end Market

/-! ### In every reachable vault -/

structure FulfillCall where
  cfg : VaultProtocolConfig
  p : TypeName
  now : Nat
  id : ID

def TradingVault.fulfill (f : Fulfillment) (v : TradingVault Obj) (call : FulfillCall) : Result Error (TradingVault Obj) := do
  let (next, _) ← v.fulfillNext call.cfg f call.p call.now call.id
  pure next

theorem TradingVault.fulfill_ok {f : Fulfillment} {call : FulfillCall} (ran : v.fulfill f call = .ok next) :
    ∃ outcome, v.fulfillNext call.cfg f call.p call.now call.id = .ok (next, outcome) := by
  simp only [fulfill, bind_ok, pure_ok, Prod.exists] at ran
  obtain ⟨_, outcome, ran, rfl⟩ := ran
  exact ⟨outcome, ran⟩

theorem Market.batch_noLoss {m : Market Obj} {f : Fulfillment} {calls : List FulfillCall} (locks : m.Locks f)
    (fair : m.Fair f v) (ran : exec (TradingVault.fulfill f) v calls = .ok next) : m.NoLoss v next := by
  refine (exec_invariant (TradingVault.fulfill f) (fun w => m.Fair f w ∧ m.NoLoss v w) ?_
    ⟨fair, NoLoss.refl m v⟩ ran).2
  intro w call after before ran
  obtain ⟨outcome, fulfills⟩ := fulfill_ok ran
  obtain ⟨fair, loss⟩ := m.fulfillNext_fair locks before.1 fulfills
  exact ⟨fair, before.2.trans loss⟩

/-- In a vault without tranches, at fixed prices, no deposit and no batch lowers the price
of a share. Exiting the shares of a deposit at the rate it was priced at takes out the
credited value at most, and right after the deposit at most what the holdings grew by. -/
theorem World.share_price_kept (w : World Obj) (reachable : w.Reachable) (untranched : w.vault.capital = .untranched)
    (m : Market Obj) {a : Appraisal Obj} (opened : a ∈ w.appraisals) (appraised : m.Appraised w.vault a) :
    (∀ cfg lp sender t amount att tranche now id next, (∀ x ∈ att, x.price = m.price t) →
      w.vault.deposit cfg lp sender a t amount att tranche now id = .ok next →
        m.NoLoss w.vault next ∧ ∃ position value, next.claims = w.vault.claims ++ [⟨position, .wallet⟩] ∧
          w.vault.depositValue cfg t amount att now = .ok value ∧ ∀ f, m.Locks f →
            (f.juniorNav = m.holdings w.vault → f.juniorSupply = w.vault.book.juniorShares →
              m.Returns next f position.shares value) ∧
            (f.juniorNav = m.holdings next → f.juniorSupply = next.book.juniorShares →
              m.Returns next f position.shares (m.holdings next - m.holdings w.vault))) ∧
      (∀ cfg lp sender cap t amount att now id next, (∀ x ∈ att, x.price = m.price t) →
        w.vault.depositIntoCommitment cfg lp sender cap a t amount att now id = .ok next → m.NoLoss w.vault next) ∧
      (∀ cfg atts now begun f calls next, (∀ x ∈ atts, x.price = m.price x.asset) →
        w.vault.beginFulfillment cfg a atts now = .ok (begun, f) →
          exec (TradingVault.fulfill f) begun calls = .ok next → m.NoLoss w.vault next) := by
  have fits := reachable.fits a opened
  have holds := reachable.sharesHold
  have worth : ∀ nav, w.vault.consumeAppraisal a = .ok nav → w.vault.consumeAppraisal a = .ok (m.holdings w.vault) := by
    intro nav consumed
    rw [consumed, appraised.nav m fits consumed]
  refine ⟨?_, ?_, ?_⟩
  · intro cfg lp sender t amount att tranche now id next priced ran
    obtain ⟨after, position, navAfter, deposited, rfl⟩ := deposit_ok ran
    obtain ⟨_, _, _, nav, _, _, _, _, consumed, syncs, issued⟩ := depositInternal_ok deposited
    obtain ⟨value, valued, added⟩ := m.depositInternal_added untranched (worth nav consumed) priced deposited
    have kept : m.Added w.vault value position.shares { after with claims := after.claims ++ [⟨position, .wallet⟩] } :=
      ⟨added.priced, added.grown, added.booked⟩
    refine ⟨kept.noLoss, position, value, ?_, valued, fun f locks => ⟨kept.returns locks, kept.returns_after locks⟩⟩
    rw [issued.claims, (syncCapital_frame syncs).claims]
  · intro cfg lp sender cap t amount att now id next priced ran
    obtain ⟨after, position, navAfter, funded, breached, deposited, funds, rfl⟩ := depositIntoCommitment_ok ran
    obtain ⟨_, _, _, nav, _, _, _, _, consumed, _, _⟩ := depositInternal_ok deposited
    obtain ⟨value, _, added⟩ := m.depositInternal_added untranched (worth nav consumed) priced deposited
    obtain ⟨claims, rfl, _⟩ := fundCommitment_ok funds
    exact (Market.Added.mk added.priced added.grown added.booked : m.Added w.vault value position.shares _).noLoss
  · intro cfg atts now begun f calls next priced begins ran
    obtain ⟨_, nav, _, _, _, consumed, _, _, _⟩ := beginFulfillment_ok begins
    obtain ⟨locks, fair, loss⟩ := m.beginFulfillment_fair untranched holds (worth nav consumed) priced begins
    exact loss.trans (Market.batch_noLoss locks fair ran)

namespace Sample

def market : Market Unit := ⟨fun _ => 2 * priceScale, fun _ => 0, 0⟩

def att : PriceAttestation := ⟨"SUI", "USDC", 2 * priceScale, 1000, by decide⟩

def appraising : List (Action Unit) :=
  deposit 1000 .untranched 10 ++
    [.call (.configure 2 (.addDepositAsset "SUI")), .call (.configure 2 (.setHaircuts 100 100)), .beginAppraisal "USDC"]

/-- The object that `swapping` values is worth 500 and the one that takes its place 2000. -/
def swapMarket : Market Nat := ⟨fun _ => 2 * priceScale, fun object => if object = 5 then 500 else 2000, 0⟩

end Sample

/-- A deposit of another coin, at the market's price less the haircut. -/
theorem World.share_price_kept_sui :
    ∃ w : World Unit, World.play (Sample.genesis .untranched) Sample.appraising = .ok w ∧
      ∃ a ∈ w.appraisals, ∃ next,
        w.vault.deposit w.env.cfg w.env.lp 7 a "SUI" 500 (some Sample.att) .untranched 1000 30 = .ok next ∧
        Sample.market.NoLoss w.vault next := by
  refine exists_ok (fun w => decide (w.vault.capital = .untranched ∧ w.vault.config.accountingAsset = "USDC") &&
    w.appraisals.any fun a => a.legs.all (fun leg => leg.balanceType = some "USDC") &&
      (w.vault.deposit w.env.cfg w.env.lp 7 a "SUI" 500 (some Sample.att) .untranched 1000 30).toOption.isSome)
    (by decide +kernel) ?_
  intro w ran passed
  obtain ⟨kind, found⟩ := Bool.and_eq_true_iff.mp passed
  obtain ⟨untranched, accounting⟩ := of_decide_eq_true kind
  obtain ⟨a, opened, checked⟩ := List.any_eq_true.mp found
  obtain ⟨plain, deposits⟩ := Bool.and_eq_true_iff.mp checked
  have only : ∀ leg ∈ a.legs, leg.balanceType = some "USDC" := fun leg member =>
    of_decide_eq_true (List.all_eq_true.mp plain leg member)
  have appraised : Sample.market.Appraised w.vault a := by
    refine ⟨fun t amount value member other => ?_, fun id object value member => ?_, fun id object value member => ?_,
      fun value member => ?_⟩
    · exact absurd (Option.some.inj (only _ member)) (accounting ▸ other)
    · cases only _ member
    · cases only _ member
    · cases only _ member
  refine ⟨a, opened, ?_⟩
  cases outcome : w.vault.deposit w.env.cfg w.env.lp 7 a "SUI" 500 (some Sample.att) .untranched 1000 30 with
  | error why => rw [outcome] at deposits; cases deposits
  | ok next =>
    have kept := World.share_price_kept w ⟨_, _, ran⟩ untranched Sample.market opened appraised
    refine ⟨next, rfl, (kept.1 _ _ _ _ _ _ _ _ _ next (fun x member => ?_) outcome).1⟩
    cases member
    rfl

/-- A deposit on an appraisal of an object that left dilutes the shares, although every leg is at
the market's prices. -/
theorem World.share_price_diluted :
    ∃ w : World Nat,
      World.play (Sample.genesis .untranched) (Sample.deposit 1000 .untranched 10 ++ Sample.swapping) = .ok w ∧
      w.vault.capital = .untranched ∧ ∃ a ∈ w.appraisals,
        a.legs = [.balance "USDC" 1000 1000, .position 20 5 (Sample.swapMarket.mark 5)] ∧ ∃ next,
          w.vault.deposit w.env.cfg w.env.lp 7 a "USDC" 1000 none .untranched 1000 30 = .ok next ∧
            ¬ Sample.swapMarket.NoLoss w.vault next := by
  refine exists_ok
    (fun w => decide (w.vault.capital = .untranched) && w.appraisals.any fun a =>
      decide (a.legs = [.balance "USDC" 1000 1000, .position 20 5 (Sample.swapMarket.mark 5)]) &&
        (w.vault.deposit w.env.cfg w.env.lp 7 a "USDC" 1000 none .untranched 1000 30).toOption.any fun next =>
          decide ((Sample.swapMarket.holdings next + 1) * (w.vault.book.juniorShares + shareOffset) <
            (Sample.swapMarket.holdings w.vault + 1) * (next.book.juniorShares + shareOffset)))
    (by decide +kernel) ?_
  intro w _ passed
  obtain ⟨untranched, found⟩ := Bool.and_eq_true_iff.mp passed
  obtain ⟨a, opened, checked⟩ := List.any_eq_true.mp found
  obtain ⟨legs, deposits⟩ := Bool.and_eq_true_iff.mp checked
  refine ⟨of_decide_eq_true untranched, a, opened, of_decide_eq_true legs, ?_⟩
  obtain ⟨next, ran, falls⟩ := (Option.any_eq_true _ _).mp deposits
  refine ⟨next, toOption_eq_some.mp ran, fun kept => ?_⟩
  have falls := of_decide_eq_true falls
  unfold Market.NoLoss ProRata.NoBetter at kept
  omega

end SuiOptions.Vault
