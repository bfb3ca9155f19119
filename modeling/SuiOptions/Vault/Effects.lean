import SuiOptions.Lib.Sums
import SuiOptions.Vault.World

/-! What each call of the vault does when it returns.

One lemma per function gives the new vault as an update of the old one, so that
an invariant reads off what a call leaves alone. -/

set_option autoImplicit false

namespace SuiOptions.Vault

open Execution Move
open Exchange (ID Address DomainState)

/-! ### The book -/

structure SameSupply (book next : TrancheBook) : Prop where
  senior : next.seniorShares = book.seniorShares
  junior : next.juniorShares = book.juniorShares
  generation : next.activeJuniorGeneration = book.activeJuniorGeneration
  proposal : next.resetProposal.isSome → book.resetProposal.isSome

theorem SameSupply.refl (book : TrancheBook) : SameSupply book book := ⟨rfl, rfl, rfl, id⟩

theorem SameSupply.trans {first second third : TrancheBook} (early : SameSupply first second)
    (late : SameSupply second third) : SameSupply first third :=
  ⟨late.senior.trans early.senior, late.junior.trans early.junior, late.generation.trans early.generation,
    early.proposal ∘ late.proposal⟩

namespace TrancheBook

variable {book next : TrancheBook}

theorem accrue_ok {cs : CapitalStructure} {now : Nat} (ran : book.accrue cs now = .ok next) : SameSupply book next := by
  unfold accrue at ran
  split at ran
  · rw [pure_ok] at ran
    subst ran
    exact ⟨rfl, rfl, rfl, id⟩
  · split at ran
    · rw [pure_ok] at ran
      subst ran
      exact .refl _
    · split at ran
      · rw [pure_ok] at ran
        subst ran
        exact ⟨rfl, rfl, rfl, id⟩
      · simp only [bind_ok, pure_ok] at ran
        obtain ⟨_, _, _, _, rfl⟩ := ran
        exact ⟨rfl, rfl, rfl, id⟩

theorem updateRiskState_supply (book : TrancheBook) (cs : CapitalStructure) (totalNav juniorNav now : Nat) :
    SameSupply book (book.updateRiskState cs totalNav juniorNav now) := by
  unfold updateRiskState
  split
  · exact ⟨rfl, rfl, rfl, id⟩
  · split
    · exact ⟨rfl, rfl, rfl, id⟩
    · exact ⟨rfl, rfl, rfl, fun some => absurd some Bool.false_ne_true⟩

theorem updateRiskState_claim (book : TrancheBook) (cs : CapitalStructure) (totalNav juniorNav now : Nat) :
    (book.updateRiskState cs totalNav juniorNav now).seniorClaim = book.seniorClaim ∧
      (book.updateRiskState cs totalNav juniorNav now).seniorPrincipalBasis = book.seniorPrincipalBasis ∧
      (book.updateRiskState cs totalNav juniorNav now).lastAccrualMs = book.lastAccrualMs := by
  unfold updateRiskState
  split
  · exact ⟨rfl, rfl, rfl⟩
  · split <;> exact ⟨rfl, rfl, rfl⟩

theorem waterfall_ok {cs : CapitalStructure} {totalNav claim basis senior junior : Nat}
    (ran : waterfall cs totalNav claim basis = .ok (senior, junior)) : senior + junior = totalNav := by
  unfold waterfall at ran
  split at ran
  · rw [pure_ok, Prod.mk.injEq] at ran
    omega
  · simp only [bind_ok, pure_ok, sub_ok, Prod.mk.injEq] at ran
    obtain ⟨_, _, _, _, _, ⟨enough, rfl⟩, rfl, rfl⟩ := ran
    omega

theorem onDeposit_ok {tranche : Tranche} {value shares : Nat} (ran : book.onDeposit tranche value shares = .ok next) :
    next.activeJuniorGeneration = book.activeJuniorGeneration ∧ next.resetProposal = book.resetProposal ∧
      next.seniorShares = book.seniorShares + (if tranche = .senior then shares else 0) ∧
      next.juniorShares = book.juniorShares + (if tranche = .senior then 0 else shares) := by
  cases tranche
  case senior =>
    simp only [onDeposit, addU128, bind_ok, fit_ok, pure_ok] at ran
    obtain ⟨_, ⟨_, rfl⟩, _, _, _, _, rfl⟩ := ran
    simp
  all_goals
    simp only [onDeposit, addU128, bind_ok, fit_ok, pure_ok] at ran
    obtain ⟨_, ⟨_, rfl⟩, rfl⟩ := ran
    simp

theorem onFulfill_ok {tranche : Tranche} {shares claim supply : Nat}
    (ran : book.onFulfill tranche shares claim supply = .ok next) :
    next.activeJuniorGeneration = book.activeJuniorGeneration ∧ next.resetProposal = book.resetProposal ∧
      book.seniorShares = next.seniorShares + (if tranche = .senior then shares else 0) ∧
      book.juniorShares = next.juniorShares + (if tranche = .senior then 0 else shares) := by
  cases tranche
  case senior =>
    simp only [onFulfill, bind_ok, sub_ok] at ran
    obtain ⟨left, ⟨enough, rfl⟩, ran⟩ := ran
    split at ran
    · rw [pure_ok] at ran
      subst ran
      simp
      omega
    · simp only [bind_ok, pure_ok] at ran
      obtain ⟨_, _, _, _, rfl⟩ := ran
      simp
      omega
  all_goals
    simp only [onFulfill, bind_ok, sub_ok, pure_ok] at ran
    obtain ⟨left, ⟨enough, rfl⟩, rfl⟩ := ran
    simp
    omega

theorem executeReset_ok {minted : Nat} (ran : book.executeReset minted = .ok next) :
    next.activeJuniorGeneration = book.activeJuniorGeneration + 1 ∧ next.resetProposal = none ∧
      next.seniorShares = book.seniorShares ∧ next.juniorShares = minted := by
  simp only [executeReset, addU64, bind_ok, fit_ok, pure_ok] at ran
  obtain ⟨_, ⟨_, rfl⟩, rfl⟩ := ran
  exact ⟨rfl, rfl, rfl, rfl⟩

theorem proposeReset_ok {now nav claim required : Nat} (ran : book.proposeReset now nav claim required = .ok next) :
    next.seniorShares = book.seniorShares ∧ next.juniorShares = book.juniorShares ∧
      next.activeJuniorGeneration = book.activeJuniorGeneration := by
  simp only [proposeReset, bind_ok, check_ok, exists_const, pure_ok] at ran
  obtain ⟨_, _, _, _, _, _, _, rfl⟩ := ran
  exact ⟨rfl, rfl, rfl⟩

end TrancheBook

/-! ### Free balances -/

namespace Purse

variable {purse next : Purse} {t : TypeName} {amount : Nat}

theorem putBalanceInternal_ok (ran : purse.putBalanceInternal t amount = .ok next) :
    next.mutationSeq = purse.mutationSeq + 1 ∧
      next.balances = Function.update purse.balances t (purse.balances t + amount) := by
  simp only [putBalanceInternal, addU64, bind_ok, fit_ok, pure_ok] at ran
  obtain ⟨_, ⟨_, rfl⟩, rfl⟩ := ran
  exact ⟨rfl, rfl⟩

theorem takeBalanceInternal_ok (ran : purse.takeBalanceInternal t amount = .ok next) :
    amount ≤ purse.balances t ∧ next.mutationSeq = purse.mutationSeq + 1 ∧
      next.balances = Function.update purse.balances t (purse.balances t - amount) := by
  simp only [takeBalanceInternal, bind_ok, check_ok, exists_const, pure_ok] at ran
  obtain ⟨_, enough, rfl⟩ := ran
  exact ⟨enough, rfl, rfl⟩

def Moved (purse next : Purse) : Prop := next = purse ∨ purse.mutationSeq < next.mutationSeq

theorem Moved.refl (purse : Purse) : Moved purse purse := Or.inl rfl

theorem Moved.trans {first second third : Purse} (early : Moved first second) (late : Moved second third) :
    Moved first third := by
  rcases early with rfl | early
  · exact late
  · rcases late with rfl | late
    · exact Or.inr early
    · exact Or.inr (Nat.lt_trans early late)

theorem Moved.put (ran : purse.putBalanceInternal t amount = .ok next) : Moved purse next := by
  have seq := (putBalanceInternal_ok ran).1
  exact Or.inr (by omega)

theorem Moved.take (ran : purse.takeBalanceInternal t amount = .ok next) : Moved purse next := by
  have seq := (takeBalanceInternal_ok ran).2.1
  exact Or.inr (by omega)

def Grew (purse next : Purse) : Prop := ∀ t, purse.balances t ≤ next.balances t

theorem Grew.put (ran : purse.putBalanceInternal t amount = .ok next) : Grew purse next := by
  intro u
  rw [(putBalanceInternal_ok ran).2]
  by_cases here : u = t
  · subst here
    rw [Function.update_self]
    exact Nat.le_add_right _ _
  · exact Nat.le_of_eq (Function.update_of_ne here _ _).symm

end Purse

namespace VaultPosition

variable {p q merged parent child credited : VaultPosition}

theorem split_ok {shares : Nat} {id : ID} (ran : p.split shares id = .ok (parent, child)) :
    parent.tranche = p.tranche ∧ parent.capitalGeneration = p.capitalGeneration ∧ child.tranche = p.tranche ∧
      child.capitalGeneration = p.capitalGeneration ∧ parent.shares + child.shares = p.shares := by
  simp only [split, bind_ok, check_ok, exists_const, pure_ok, Prod.mk.injEq] at ran
  obtain ⟨bounds, _, _, _, _, rfl, rfl⟩ := ran
  exact ⟨rfl, rfl, rfl, rfl, Nat.sub_add_cancel (Nat.le_of_lt bounds.2)⟩

theorem credit_ok {shares basis : Nat} (ran : p.credit shares basis = .ok credited) :
    credited.tranche = p.tranche ∧ credited.capitalGeneration = p.capitalGeneration ∧
      credited.shares = p.shares + shares := by
  simp only [credit, addU128, bind_ok, fit_ok, pure_ok] at ran
  obtain ⟨_, ⟨_, rfl⟩, _, _, rfl⟩ := ran
  exact ⟨rfl, rfl, rfl⟩

theorem merge_ok (ran : p.merge q = .ok merged) :
    q.tranche = p.tranche ∧ q.capitalGeneration = p.capitalGeneration ∧ merged.tranche = p.tranche ∧
      merged.capitalGeneration = p.capitalGeneration ∧ merged.shares = p.shares + q.shares := by
  simp only [merge, bind_ok, check_ok, exists_const, pure_ok] at ran
  obtain ⟨⟨tranche, generation⟩, _, credits, rfl⟩ := ran
  obtain ⟨same, kept, shares⟩ := credit_ok credits
  exact ⟨tranche, generation, same, kept, shares⟩

end VaultPosition

namespace TradingVault

variable {Obj : Type} {v next : TradingVault Obj}

theorem put_ok {t : TypeName} {amount : Nat} :
    v.put t amount = .ok next ↔ ∃ purse, v.purse.putBalanceInternal t amount = .ok purse ∧ { v with purse } = next := by
  simp only [put, bind_ok, pure_ok]

theorem take_ok {t : TypeName} {amount : Nat} :
    v.take t amount = .ok next ↔ ∃ purse, v.purse.takeBalanceInternal t amount = .ok purse ∧ { v with purse } = next := by
  simp only [take, bind_ok, pure_ok]

/-- Paying out leaves everything but the purse, which lost the amount. -/
theorem payOut_ok {t : TypeName} {amount : Nat} (ran : v.payOut t amount = .ok next) :
    ∃ purse, next = { v with purse } ∧ amount ≤ v.purse.balances t ∧
      purse.balances = Function.update v.purse.balances t (v.purse.balances t - amount) ∧ v.purse.Moved purse := by
  unfold payOut at ran
  split at ran
  case isTrue none =>
    rw [pure_ok] at ran
    subst ran none
    refine ⟨v.purse, rfl, Nat.zero_le _, ?_, Or.inl rfl⟩
    simp
  case isFalse =>
    obtain ⟨purse, taken, rfl⟩ := take_ok.mp ran
    obtain ⟨enough, _, balances⟩ := Purse.takeBalanceInternal_ok taken
    exact ⟨purse, rfl, enough, balances, .take taken⟩

theorem payOut_twice {middle : TradingVault Obj} {t : TypeName} {first second : Nat} (early : v.payOut t first = .ok middle)
    (late : middle.payOut t second = .ok next) :
    ∃ purse, next = { v with purse } ∧ first + second ≤ v.purse.balances t ∧
      purse.balances = Function.update v.purse.balances t (v.purse.balances t - (first + second)) ∧
      v.purse.Moved purse := by
  obtain ⟨one, rfl, covered, balances, moved⟩ := payOut_ok early
  obtain ⟨two, rfl, covered', balances', moved'⟩ := payOut_ok late
  simp only [balances, Function.update_self, Function.update_idem] at covered' balances'
  refine ⟨two, rfl, by omega, ?_, moved.trans moved'⟩
  rw [balances', Nat.sub_sub]

theorem storePositionInternal_ok {adapter : TypeName} {id : ID} {object : Obj}
    (ran : v.storePositionInternal adapter id object = .ok next) :
    ∃ custody, v.custody.store adapter id object = .ok custody ∧ { v with custody } = next := by
  simpa only [storePositionInternal, bind_ok, pure_ok] using ran

/-! ### Claims -/

theorem walletPosition_ok {index : Nat} {p : VaultPosition} :
    v.walletPosition index = .ok p ↔ v.claims[index]? = some ⟨p, .wallet⟩ := by
  simp only [walletPosition, bind_ok, need_ok, check_ok, exists_const, pure_ok]
  constructor
  · rintro ⟨⟨position, place⟩, found, rfl, rfl⟩
    exact found
  · intro found
    exact ⟨_, found, rfl, rfl⟩

theorem splitPosition_ok {index shares : Nat} {id : ID} (ran : v.splitPosition index shares id = .ok next) :
    ∃ p parent child, v.claims[index]? = some ⟨p, .wallet⟩ ∧ p.split shares id = .ok (parent, child) ∧
      { v with claims := v.claims.set index ⟨parent, .wallet⟩ ++ [⟨child, .wallet⟩] } = next := by
  simpa only [splitPosition, bind_ok, walletPosition_ok, pure_ok, Prod.exists, exists_and_left] using ran

theorem mergePositions_ok {index other : Nat} (ran : v.mergePositions index other = .ok next) :
    index ≠ other ∧ ∃ p q merged, v.claims[index]? = some ⟨p, .wallet⟩ ∧ v.claims[other]? = some ⟨q, .wallet⟩ ∧
      p.merge q = .ok merged ∧ { v with claims := (v.claims.set index ⟨merged, .wallet⟩).eraseIdx other } = next := by
  simpa only [mergePositions, bind_ok, check_ok, exists_const, walletPosition_ok, pure_ok, exists_and_left] using ran

theorem escrowed_ok {capId : ID} {tranche : Tranche} {index : Nat} {held : Held}
    (found : v.escrowed capId tranche = some (index, held)) :
    v.claims[index]? = some held ∧ held.place = .commitment capId tranche := by
  simp only [escrowed, Option.bind_eq_bind, Option.bind_eq_some_iff, Option.pure_def, Option.some.injEq,
    Prod.mk.injEq] at found
  obtain ⟨_, located, _, got, rfl, rfl⟩ := found
  obtain ⟨bound, same, _⟩ := List.findIdx?_eq_some_iff_getElem.mp located
  rw [List.getElem?_eq_getElem bound, Option.some.injEq] at got
  subst got
  exact ⟨List.getElem?_eq_getElem bound, by simpa using same⟩

/-! ### Capital sync -/

theorem syncCapital_ok {cfg : VaultProtocolConfig} {nav now seniorNav juniorNav : Nat}
    (ran : v.syncCapital cfg nav now = .ok (next, seniorNav, juniorNav)) :
    ∃ book breached, SameSupply v.book book ∧ seniorNav + juniorNav = nav ∧
      next = { v with book, curatorCommitmentBreached := breached, capitalSeq := v.capitalSeq + 1 } := by
  simp only [syncCapital, bind_ok, pure_ok, Prod.exists, Prod.mk.injEq] at ran
  obtain ⟨accrued, accrues, senior, junior, falls, breached, _, rfl, rfl, rfl⟩ := ran
  refine ⟨_, breached, ?_, TrancheBook.waterfall_ok falls, rfl⟩
  exact (TrancheBook.accrue_ok accrues).trans (TrancheBook.updateRiskState_supply _ _ _ _ _)

/-- Two vaults that differ in funds, book, capital sequence and commitment flag only. -/
structure Framed (v next : TradingVault Obj) : Prop where
  id : next.id = v.id
  curatorCapId : next.curatorCapId = v.curatorCapId
  state : next.state = v.state
  config : next.config = v.config
  capital : next.capital = v.capital
  custody : next.custody = v.custody
  queue : next.queue = v.queue
  external : next.external = v.external
  settlement : next.settlement = v.settlement
  claims : next.claims = v.claims

structure SyncFrame (v next : TradingVault Obj) : Prop extends Framed v next where
  supply : SameSupply v.book next.book
  purse : next.purse = v.purse

theorem syncCapital_frame {cfg : VaultProtocolConfig} {nav now seniorNav juniorNav : Nat}
    (ran : v.syncCapital cfg nav now = .ok (next, seniorNav, juniorNav)) : SyncFrame v next := by
  obtain ⟨book, breached, supply, _, rfl⟩ := syncCapital_ok ran
  exact ⟨⟨rfl, rfl, rfl, rfl, rfl, rfl, rfl, rfl, rfl, rfl⟩, supply, rfl⟩

theorem crankAppraisal_ok {a : Appraisal Obj} (ran : v.crankAppraisal a = .ok next) :
    ∃ nav, v.consumeAppraisal a = .ok nav ∧ v = next := by
  simpa only [crankAppraisal, bind_ok, pure_ok] using ran

theorem crankCapital_ok {cfg : VaultProtocolConfig} {a : Appraisal Obj} {now : Nat}
    (ran : v.crankCapital cfg a now = .ok next) :
    ∃ nav seniorNav juniorNav, v.consumeAppraisal a = .ok nav ∧
      v.syncCapital cfg nav now = .ok (next, seniorNav, juniorNav) := by
  simp only [crankCapital, bind_ok, pure_ok, Prod.exists] at ran
  obtain ⟨nav, consumed, _, seniorNav, juniorNav, syncs, rfl⟩ := ran
  exact ⟨nav, seniorNav, juniorNav, consumed, syncs⟩

/-! ### Deposits -/

structure Issued (v : TradingVault Obj) (tranche : Tranche) (t : TypeName) (amount value nav seniorNav juniorNav : Nat)
    (next : TradingVault Obj) (position : VaultPosition) : Prop extends Framed v next where
  priced : sharesForValue value (trancheNav tranche nav seniorNav juniorNav) (v.book.supplyOf tranche) shareOffset =
    .ok position.shares
  positive : 0 < position.shares
  ofTranche : position.tranche = tranche
  ofGeneration : position.capitalGeneration = v.generationOf tranche
  stored : v.purse.putBalanceInternal t amount = .ok next.purse
  booked : v.book.onDeposit tranche value position.shares = .ok next.book

theorem issue_ok {cfg : VaultProtocolConfig} {tranche : Tranche} {t : TypeName}
    {amount value nav seniorNav juniorNav now navAfter : Nat} {id : ID} {position : VaultPosition}
    (ran : v.issue cfg tranche t amount value nav seniorNav juniorNav now id = .ok (next, position, navAfter)) :
    Issued v tranche t amount value nav seniorNav juniorNav next position := by
  simp only [issue, bind_ok, check_ok, exists_const, pure_ok, Prod.mk.injEq] at ran
  obtain ⟨_, _, _, _, shares, priced, positive, purse, stored, book, booked, _, _, _, _, _, _, breached, _, rfl, rfl, rfl⟩ :=
    ran
  exact ⟨⟨rfl, rfl, rfl, rfl, rfl, rfl, rfl, rfl, rfl, rfl⟩, priced, positive, rfl, rfl, stored, booked⟩

theorem depositInternal_ok {cfg : VaultProtocolConfig} {lp : DomainState} {sender : Address} {a : Appraisal Obj}
    {t : TypeName} {amount now navAfter : Nat} {att : Option PriceAttestation} {tranche : Tranche} {id : ID}
    {position : VaultPosition}
    (ran : v.depositInternal cfg lp sender a t amount att tranche now id = .ok (next, position, navAfter)) :
    v.state = .opened ∧ v.capital.isTranched = decide (tranche ≠ .untranched) ∧
      ∃ value nav synced seniorNav juniorNav, v.depositValue cfg t amount att now = .ok value ∧
        v.consumeAppraisal a = .ok nav ∧ v.syncCapital cfg nav now = .ok (synced, seniorNav, juniorNav) ∧
        Issued synced tranche t amount value nav seniorNav juniorNav next position := by
  simp only [depositInternal, bind_ok, check_ok, exists_const, Prod.exists] at ran
  obtain ⟨_, _, _, opened, _, _, _, kind, value, valued, nav, consumed, synced, seniorNav, juniorNav, syncs, issued⟩ := ran
  exact ⟨opened, kind, value, nav, synced, seniorNav, juniorNav, valued, consumed, syncs, issue_ok issued⟩

theorem deposit_ok {cfg : VaultProtocolConfig} {lp : DomainState} {sender : Address} {a : Appraisal Obj}
    {t : TypeName} {amount now : Nat} {att : Option PriceAttestation} {tranche : Tranche} {id : ID}
    (ran : v.deposit cfg lp sender a t amount att tranche now id = .ok next) :
    ∃ w position navAfter, v.depositInternal cfg lp sender a t amount att tranche now id = .ok (w, position, navAfter) ∧
      { w with claims := w.claims ++ [⟨position, .wallet⟩] } = next := by
  simpa only [deposit, bind_ok, pure_ok, Prod.exists] using ran

theorem depositIntoCommitment_ok {cfg : VaultProtocolConfig} {lp : DomainState} {sender : Address} {cap : ID}
    {a : Appraisal Obj} {t : TypeName} {amount now : Nat} {att : Option PriceAttestation} {id : ID}
    (ran : v.depositIntoCommitment cfg lp sender cap a t amount att now id = .ok next) :
    ∃ w position navAfter funded breached,
      v.depositInternal cfg lp sender a t amount att v.commitmentTranche now id = .ok (w, position, navAfter) ∧
      w.fundCommitment position = .ok funded ∧ { funded with curatorCommitmentBreached := breached } = next := by
  simp only [depositIntoCommitment, bind_ok, pure_ok, Prod.exists] at ran
  obtain ⟨_, _, w, position, navAfter, deposited, funded, funds, _, _, _, breached, _, rfl⟩ := ran
  exact ⟨w, position, navAfter, funded, breached, deposited, funds, rfl⟩

/-! ### Fulfillment -/

theorem beginFulfillment_ok {cfg : VaultProtocolConfig} {a : Appraisal Obj} {atts : List PriceAttestation} {now : Nat}
    {f : Fulfillment} (ran : v.beginFulfillment cfg a atts now = .ok (next, f)) :
    v.state ≠ .closed ∧ ∃ nav seniorNav juniorNav prices, v.consumeAppraisal a = .ok nav ∧
      v.syncCapital cfg nav now = .ok (next, seniorNav, juniorNav) ∧ next.lockPrices cfg now atts [] = .ok prices ∧
      f = { seniorNav
            seniorSupply := next.book.seniorShares
            juniorNav := if next.capital.isTranched then juniorNav else nav
            juniorSupply := next.book.juniorShares
            lockedClaim := next.book.seniorClaim
            juniorBlocked := next.capital.isTranched && !next.book.isHealthy
            prices } := by
  simp only [beginFulfillment, bind_ok, check_ok, exists_const, pure_ok, Prod.exists, Prod.mk.injEq] at ran
  obtain ⟨running, nav, consumed, w, seniorNav, juniorNav, syncs, _, _, _, prices, locked, rfl, rfl⟩ := ran
  exact ⟨running, nav, seniorNav, juniorNav, prices, consumed, syncs, locked, rfl⟩

theorem burnShares_ok {f : Fulfillment} {request : WithdrawRequest} (ran : v.burnShares f request = .ok next) :
    v.wipedClaim request.tranche request.capitalGeneration = true ∧ v = next ∨
      v.wipedClaim request.tranche request.capitalGeneration = false ∧
        ∃ book, v.book.onFulfill request.tranche request.shares f.lockedClaim f.seniorSupply = .ok book ∧
          { v with book } = next := by
  unfold burnShares at ran
  split at ran
  case isTrue wiped => exact Or.inl ⟨wiped, pure_ok.mp ran⟩
  case isFalse live =>
    simp only [bind_ok, pure_ok] at ran
    exact Or.inr ⟨by simpa using live, ran⟩

theorem mintFee_ok {f : Fulfillment} {tranche : Tranche} {curatorNet : Nat} {id : ID}
    (ran : v.mintFee f tranche curatorNet id = .ok next) :
    v = next ∨ ∃ minted book,
      sharesForValue curatorNet (f.navOf tranche) (f.supplyOf tranche) shareOffset = .ok minted ∧
      v.book.onDeposit tranche curatorNet minted = .ok book ∧
      ({ v with book } : TradingVault Obj).creditCommitment tranche minted curatorNet id = .ok next := by
  unfold mintFee at ran
  split at ran
  · exact Or.inl (pure_ok.mp ran)
  · simp only [bind_ok] at ran
    obtain ⟨minted, priced, ran⟩ := ran
    split at ran
    · exact Or.inl (pure_ok.mp ran)
    · simp only [bind_ok] at ran
      obtain ⟨book, booked, credits⟩ := ran
      exact Or.inr ⟨minted, book, priced, booked, credits⟩

theorem settleRequest_ok {f : Fulfillment} {p : TypeName} {receipt : Receipt} {id : ID}
    (ran : v.settleRequest f p receipt id = .ok next) :
    ∃ curatorNet burned minted cut, sub receipt.priced.grossFee receipt.priced.protocolCut = (.ok curatorNet : Result Error Nat) ∧
      v.burnShares f receipt.request = .ok burned ∧
      burned.mintFee f receipt.request.tranche curatorNet id = .ok minted ∧
      ({ minted with capitalSeq := minted.capitalSeq + 1 } : TradingVault Obj).payOut p receipt.cutUnits = .ok cut ∧
      cut.payOut p receipt.payoutUnits = .ok next := by
  simp only [settleRequest, bind_ok] at ran
  obtain ⟨curatorNet, net, burned, burns, minted, mints, cut, cuts, pays⟩ := ran
  exact ⟨curatorNet, burned, minted, cut, net, burns, mints, cuts, pays⟩

structure Paid (v : TradingVault Obj) (cfg : VaultProtocolConfig) (f : Fulfillment) (p : TypeName) (id : ID)
    (receipt : Receipt) (next : TradingVault Obj) : Prop where
  found : v.queue.requests.get? receipt.seq = some receipt.request
  priced : v.priceRequest cfg f receipt.request = .ok receipt.priced
  converted : v.convert f p receipt.request receipt.priced = .ok (receipt.payoutUnits, receipt.cutUnits)
  settled : ({ v with queue := v.queue.advanced.drop receipt.seq receipt.request found } : TradingVault Obj).settleRequest
    f p receipt id = .ok next

theorem fulfillNext_ok {cfg : VaultProtocolConfig} {f : Fulfillment} {p : TypeName} {now : Nat} {id : ID}
    {outcome : Option Receipt} (ran : v.fulfillNext cfg f p now id = .ok (next, outcome)) :
    v.advanceLanes = next ∧ outcome = none ∨ ∃ receipt, outcome = some receipt ∧ Paid v cfg f p id receipt next := by
  simp only [fulfillNext, bind_ok] at ran
  obtain ⟨chosen, _, ran⟩ := ran
  split at ran
  case h_1 =>
    simp only [pure_ok, Prod.mk.injEq] at ran
    exact Or.inl ⟨ran.1, ran.2.symm⟩
  case h_2 seq =>
    simp only [fulfillRequest, bind_ok, Prod.exists, Subtype.exists] at ran
    obtain ⟨request, found, _, priced, prices, payoutUnits, cutUnits, converts, ran⟩ := ran
    split at ran
    case isTrue =>
      simp only [pure_ok, Prod.mk.injEq] at ran
      exact Or.inl ⟨ran.1, ran.2.symm⟩
    case isFalse =>
      simp only [bind_ok, pure_ok, Prod.mk.injEq] at ran
      obtain ⟨paid, settles, rfl, rfl⟩ := ran
      exact Or.inr ⟨_, rfl, found, prices, converts, settles⟩

/-! ### Requests -/

theorem requestWithdraw_ok {sender : Address} {index now : Nat} {payoutAsset : TypeName}
    (ran : v.requestWithdraw sender index payoutAsset now = .ok next) :
    v.state ≠ .closed ∧ ∃ p, v.claims[index]? = some ⟨p, .wallet⟩ ∧ ∃ request : WithdrawRequest,
      request.tranche = p.tranche ∧ request.capitalGeneration = p.capitalGeneration ∧ request.shares = p.shares ∧
      { v with claims := v.claims.eraseIdx index, queue := v.queue.push request } = next := by
  simp only [requestWithdraw, bind_ok, check_ok, exists_const, walletPosition_ok, pure_ok] at ran
  obtain ⟨running, p, held, _, _, _, _, rfl⟩ := ran
  exact ⟨running, p, held, _, rfl, rfl, rfl, rfl⟩

theorem amendPayoutAsset_ok {sender : Address} {seq : Nat} {payoutAsset : TypeName}
    (ran : v.amendPayoutAsset sender seq payoutAsset = .ok next) :
    ∃ request, ∃ found : v.queue.requests.get? seq = some request,
      { v with queue := v.queue.repoint seq request found payoutAsset } = next := by
  simp only [amendPayoutAsset, bind_ok, check_ok, exists_const, pure_ok, Subtype.exists] at ran
  obtain ⟨request, found, _, _, _, _, rfl⟩ := ran
  exact ⟨request, found, rfl⟩

/-! ### Sessions and sweeps -/

/-- A session move touches the purse and the custody; a forced one takes nothing. -/
theorem sessionOp_ok {adapter : TypeName} {forced : Bool} {op : SessionOp Obj}
    (ran : v.sessionOp adapter forced op = .ok next) :
    ∃ purse custody, next = { v with purse, custody } ∧ v.purse.Moved purse ∧
      (forced = true → v.purse.Grew purse) := by
  cases op with
  | take t amount =>
    simp only [sessionOp, bind_ok, check_ok, exists_const] at ran
    obtain ⟨free, _, taken⟩ := ran
    obtain ⟨purse, moved, rfl⟩ := take_ok.mp taken
    exact ⟨purse, v.custody, rfl, .take moved, fun forced => absurd (free.symm.trans forced) (by decide)⟩
  | put t amount =>
    simp only [sessionOp] at ran
    split at ran
    · rw [pure_ok] at ran
      subst ran
      exact ⟨v.purse, v.custody, rfl, .refl _, fun _ _ => Nat.le_refl _⟩
    · obtain ⟨purse, moved, rfl⟩ := put_ok.mp ran
      exact ⟨purse, v.custody, rfl, .put moved, fun _ => .put moved⟩
  | putPosition id object =>
    obtain ⟨custody, _, rfl⟩ := storePositionInternal_ok ran
    exact ⟨v.purse, custody, rfl, .refl _, fun _ _ => Nat.le_refl _⟩
  | takePosition id =>
    simp only [sessionOp, takePosition] at ran
    split at ran
    · simp only [bind_ok, check_ok, exists_const, pure_ok] at ran
      obtain ⟨_, rfl⟩ := ran
      exact ⟨v.purse, _, rfl, .refl _, fun _ _ => Nat.le_refl _⟩
    · cases ran

theorem sessionOps_ok {adapter : TypeName} {forced : Bool} {ops : List (SessionOp Obj)}
    (ran : exec (fun w op => w.sessionOp adapter forced op) v ops = .ok next) :
    ∃ purse custody, next = { v with purse, custody } ∧ v.purse.Moved purse ∧
      (forced = true → v.purse.Grew purse) := by
  -- the frame is transitive, so it is an invariant of the moves relative to the start
  refine exec_invariant (fun w op => w.sessionOp adapter forced op)
    (fun w => ∃ purse custody, w = { v with purse, custody } ∧ v.purse.Moved purse ∧ (forced = true → v.purse.Grew purse))
    ?_ ⟨v.purse, v.custody, rfl, .refl _, fun _ _ => Nat.le_refl _⟩ ran
  rintro w op after ⟨purse, custody, rfl, moved, grew⟩ stepped
  obtain ⟨purse', custody', rfl, moved', grew'⟩ := sessionOp_ok stepped
  exact ⟨purse', custody', rfl, moved.trans moved', fun held t => Nat.le_trans (grew held t) (grew' held t)⟩

/-- Opening a session advances the lanes at most; once closed, every session is forced. -/
theorem openSession_ok {kind : SessionKind} {adapters : List TypeName} {adapter : TypeName} {now : Nat} {forced : Bool}
    (ran : v.openSession kind adapters adapter now = .ok (next, forced)) :
    (v = next ∨ v.advanceLanes = next) ∧ (v.state = .closed → forced = true) := by
  cases kind with
  | curator cap =>
    simp only [openSession, bind_ok, check_ok, exists_const, pure_ok, Prod.mk.injEq] at ran
    obtain ⟨_, _, running, _, rfl, _⟩ := ran
    exact ⟨Or.inl rfl, fun closed => absurd closed running⟩
  | force =>
    simp only [openSession, bind_ok, check_ok, exists_const, pure_ok, Prod.mk.injEq] at ran
    obtain ⟨_, _, _, rfl, rfl⟩ := ran
    refine ⟨?_, fun _ => rfl⟩
    split
    · exact Or.inl rfl
    · exact Or.inr rfl
  | quote =>
    simp only [openSession, bind_ok, check_ok, exists_const, pure_ok, Prod.mk.injEq] at ran
    obtain ⟨opened, _, _, _, rfl, _⟩ := ran
    exact ⟨Or.inl rfl, fun closed => absurd (opened.symm.trans closed) (by decide)⟩
  | crank =>
    simp only [openSession, pure_ok, Prod.mk.injEq] at ran
    exact ⟨Or.inl ran.1, fun _ => ran.2.symm⟩

theorem session_ok {kind : SessionKind} {adapters : List TypeName} {adapter : TypeName} {now : Nat}
    {ops : List (SessionOp Obj)} (ran : v.session kind adapters adapter now ops = .ok next) :
    ∃ purse custody queue, next = { v with purse, custody, queue } ∧ (queue = v.queue ∨ queue = v.queue.advanced) ∧
      v.purse.Moved purse ∧ (v.state = .closed → v.purse.Grew purse) := by
  simp only [session, bind_ok, Prod.exists] at ran
  obtain ⟨opened, forced, opens, moves⟩ := ran
  obtain ⟨start, closing⟩ := openSession_ok opens
  obtain ⟨purse, custody, rfl, moved, grew⟩ := sessionOps_ok moves
  rcases start with rfl | rfl
  · exact ⟨purse, custody, _, rfl, Or.inl rfl, moved, fun closed => grew (closing closed)⟩
  · exact ⟨purse, custody, _, rfl, Or.inr rfl, moved, fun closed => grew (closing closed)⟩

theorem receivePosition_ok {adapters : List TypeName} {adapter : TypeName} {id : ID} {object : Obj}
    (ran : v.receivePosition adapters adapter id object = .ok next) :
    ∃ custody, v.custody.store adapter id object = .ok custody ∧ { v with custody } = next := by
  simp only [receivePosition, bind_ok, check_ok, exists_const] at ran
  exact storePositionInternal_ok ran.2

theorem receiveCoin_ok {adapters : List TypeName} {adapter t : TypeName} {amount : Nat}
    (ran : v.receiveCoin adapters adapter t amount = .ok next) :
    ∃ purse, { v with purse } = next ∧ v.purse.Moved purse ∧ v.purse.Grew purse := by
  simp only [receiveCoin, bind_ok, check_ok, exists_const] at ran
  obtain ⟨_, ran⟩ := ran
  split at ran
  · exact ⟨v.purse, pure_ok.mp ran, .refl _, fun _ => Nat.le_refl _⟩
  · obtain ⟨purse, stored, rfl⟩ := put_ok.mp ran
    exact ⟨purse, rfl, .put stored, .put stored⟩

theorem mmRelease_ok {source recipient : ID} {t : TypeName} {amount : Nat}
    (ran : v.mmRelease source recipient t amount = .ok next) :
    v.isRiskOff = false ∧ ∃ purse, v.purse.takeBalanceInternal t amount = .ok purse ∧ { v with purse } = next := by
  simp only [mmRelease, releaseForMm, bind_ok, check_ok, exists_const] at ran
  exact ⟨ran.2.2.2.1, take_ok.mp ran.2.2.2.2⟩

/-! ### The external account -/

def exposure (v : TradingVault Obj) : Nat := (v.external.map (·.exposure)).getD 0

theorem setExternalAccount_ok {oracles : List TypeName} {account : Address} {equityOracle : TypeName}
    {budgetBps dailyReleaseBps : Nat}
    (ran : v.setExternalAccount oracles account equityOracle budgetBps dailyReleaseBps = .ok next) :
    ∃ external, { v with external := some external } = next ∧ external.exposure = v.exposure := by
  simp only [setExternalAccount, bind_ok, check_ok, exists_const] at ran
  obtain ⟨_, _, ran⟩ := ran
  split at ran
  case h_1 ext known =>
    rw [pure_ok] at ran
    exact ⟨_, ran, by simp [exposure, known]⟩
  case h_2 none =>
    rw [pure_ok] at ran
    exact ⟨_, ran, by simp [exposure, none, ExternalAccount.registered]⟩

theorem setExternalAccountAttested_ok {cfg : VaultProtocolConfig} {oracles : List TypeName} {cap : ID}
    {account : Address} {equityOracle : TypeName} {budgetBps dailyReleaseBps : Nat} {signed : Bool}
    (ran : v.setExternalAccountAttested cfg oracles cap account equityOracle budgetBps dailyReleaseBps signed =
      .ok next) : ∃ external, { v with external := some external } = next ∧ external.exposure = v.exposure := by
  simp only [setExternalAccountAttested, bind_ok, check_ok, exists_const, pure_ok] at ran
  obtain ⟨_, _, none, _, _, _, _, rfl⟩ := ran
  exact ⟨_, rfl, by simp [exposure, none, ExternalAccount.registered]⟩

theorem clearExternalAccount_ok (ran : v.clearExternalAccount = .ok next) :
    v.exposure = 0 ∧ { v with external := none } = next := by
  simp only [clearExternalAccount, bind_ok, need_ok, check_ok, exists_const, pure_ok] at ran
  obtain ⟨ext, known, zero, same⟩ := ran
  exact ⟨by simp [exposure, known, zero], same⟩

theorem returnExternal_ok {sender : Address} {t : TypeName} {amount : Nat}
    (ran : v.returnExternal sender t amount = .ok next) :
    ∃ ext purse, v.external = some ext ∧ sender = ext.account ∧ t = v.config.accountingAsset ∧
      v.purse.putBalanceInternal t amount = .ok purse ∧
      { v with external := some { ext with exposure := ext.exposure - amount }, purse } = next := by
  simp only [returnExternal, bind_ok, need_ok, check_ok, exists_const, put_ok] at ran
  obtain ⟨ext, known, asset, _, mine, purse, stored, rfl⟩ := ran
  exact ⟨ext, purse, known, mine, asset, stored, rfl⟩

theorem releaseExternal_ok {cfg : VaultProtocolConfig} {cap : ID} {a : Appraisal Obj} {t : TypeName} {amount now : Nat}
    (ran : v.releaseExternal cfg cap a t amount now = .ok next) :
    v.state = .opened ∧ t = v.config.accountingAsset ∧ ∃ nav synced seniorNav juniorNav ext, ∃ after : ExternalAccount,
      ∃ purse, v.consumeAppraisal a = .ok nav ∧ v.syncCapital cfg nav now = .ok (synced, seniorNav, juniorNav) ∧
      v.external = some ext ∧ after.exposure = ext.exposure + amount ∧
      synced.purse.takeBalanceInternal t amount = .ok purse ∧
      { synced with external := some after, purse } = next := by
  simp only [releaseExternal, addU64, bind_ok, check_ok, exists_const, need_ok, Prod.exists, take_ok, fit_ok] at ran
  obtain ⟨_, _, opened, asset, _, ext, known, nav, consumed, synced, seniorNav, juniorNav, syncs, _, rolled, rolls, _, _,
    _, _, _, _, _, ⟨_, rfl⟩, _, ⟨_, rfl⟩, purse, taken, rfl⟩ := ran
  refine ⟨opened, asset, nav, synced, seniorNav, juniorNav, ext, _, purse, consumed, syncs, known, ?_, taken, rfl⟩
  simp only [ExternalAccount.rolled, bind_ok, pure_ok] at rolls
  obtain ⟨_, _, rfl⟩ := rolls
  split <;> rfl

/-! ### Reset, commitment and rotation -/

theorem proposeJuniorReset_ok {cfg : VaultProtocolConfig} {a : Appraisal Obj} {now : Nat}
    (ran : v.proposeJuniorReset cfg a now = .ok next) :
    v.state = .opened ∧ v.capital.isTranched = true ∧ ∃ nav synced seniorNav juniorNav, ∃ book : TrancheBook,
      v.consumeAppraisal a = .ok nav ∧ v.syncCapital cfg nav now = .ok (synced, seniorNav, juniorNav) ∧
      (book.seniorShares = synced.book.seniorShares ∧ book.juniorShares = synced.book.juniorShares ∧
        book.activeJuniorGeneration = synced.book.activeJuniorGeneration) ∧
      { synced with book, capitalSeq := synced.capitalSeq + 1 } = next := by
  simp only [proposeJuniorReset, resetEligible, bind_ok, check_ok, exists_const, Prod.exists, pure_ok] at ran
  obtain ⟨opened, tranched, nav, consumed, synced, seniorNav, juniorNav, syncs, _, _, _, _, book, proposes, rfl⟩ := ran
  exact ⟨opened, tranched, nav, synced, seniorNav, juniorNav, book, consumed, syncs, TrancheBook.proposeReset_ok proposes, rfl⟩

theorem executeJuniorReset_ok {cfg : VaultProtocolConfig} {lp : DomainState} {sender : Address} {a : Appraisal Obj}
    {t : TypeName} {amount now : Nat} {id : ID}
    (ran : v.executeJuniorReset cfg lp sender a t amount now id = .ok next) :
    v.state = .opened ∧ ∃ nav synced seniorNav juniorNav purse book position, v.consumeAppraisal a = .ok nav ∧
      v.syncCapital cfg nav now = .ok (synced, seniorNav, juniorNav) ∧ synced.book.resetProposal.isSome ∧
      synced.purse.putBalanceInternal t amount = .ok purse ∧
      synced.book.executeReset position.shares = .ok book ∧ position.tranche = .junior ∧
      position.capitalGeneration = book.activeJuniorGeneration ∧
      { synced with
        purse
        book
        capitalSeq := synced.capitalSeq + 1
        curatorCommitmentBreached := true
        claims := synced.claims ++ [⟨position, .wallet⟩] } = next := by
  simp only [executeJuniorReset, resetEligible, bind_ok, check_ok, exists_const, need_ok, Prod.exists, pure_ok] at ran
  obtain ⟨_, _, _, opened, _, nav, consumed, synced, seniorNav, juniorNav, syncs, proposal, proposed, _, _, _, _, _, _, _,
    _, purse, stored, minted, _, book, resets, _, _, rfl⟩ := ran
  exact ⟨opened, nav, synced, seniorNav, juniorNav, purse, book, _, consumed, syncs, by simp [proposed], stored, resets,
    rfl, rfl, rfl⟩

theorem burnWipedPosition_ok {index : Nat} (ran : v.burnWipedPosition index = .ok next) :
    ∃ p, v.claims[index]? = some ⟨p, .wallet⟩ ∧ v.wipedClaim p.tranche p.capitalGeneration = true ∧
      { v with claims := v.claims.eraseIdx index } = next := by
  simpa only [burnWipedPosition, bind_ok, check_ok, exists_const, walletPosition_ok, pure_ok] using ran

theorem splitCommitment_ok {shares : Nat} {id : ID} (ran : v.splitCommitment shares id = .ok next) :
    ∃ index held, v.claims[index]? = some held ∧
      ({ v with claims := v.claims.set index { held with place := .wallet } } = next ∨
        ∃ parent child, held.position.split shares id = .ok (parent, child) ∧
          { v with claims := v.claims.set index { held with position := parent } ++ [⟨child, .wallet⟩] } = next) := by
  simp only [splitCommitment, bind_ok, need_ok, Prod.exists] at ran
  obtain ⟨index, held, slot, ran⟩ := ran
  refine ⟨index, held, (escrowed_ok slot).1, ?_⟩
  split at ran
  · exact Or.inl (pure_ok.mp ran)
  · simp only [bind_ok, pure_ok, Prod.exists] at ran
    exact Or.inr ran

theorem releaseCommitment_ok {cfg : VaultProtocolConfig} {cap : ID} {a : Appraisal Obj} {shares now : Nat} {id : ID}
    (ran : v.releaseCommitment cfg cap a shares now id = .ok next) :
    v.state ≠ .closed ∧ ∃ nav synced seniorNav juniorNav released breached, v.consumeAppraisal a = .ok nav ∧
      v.syncCapital cfg nav now = .ok (synced, seniorNav, juniorNav) ∧ synced.splitCommitment shares id = .ok released ∧
      { released with curatorCommitmentBreached := breached } = next := by
  simp only [releaseCommitment, bind_ok, check_ok, exists_const, Prod.exists] at ran
  obtain ⟨_, _, running, nav, consumed, synced, seniorNav, juniorNav, syncs, _, released, splits, ran⟩ := ran
  refine ⟨running, nav, synced, seniorNav, juniorNav, released, ?_⟩
  split at ran
  · simp only [bind_ok, check_ok, exists_const, pure_ok] at ran
    obtain ⟨breached, _, _, rfl⟩ := ran
    exact ⟨breached, consumed, syncs, splits, rfl⟩
  · rw [pure_ok] at ran
    subst ran
    exact ⟨_, consumed, syncs, splits, rfl⟩

theorem slotOf_ok {cap : ID} {index : Nat} {held : Held} (found : v.slotOf cap = some (index, held)) :
    v.claims[index]? = some held := by
  unfold slotOf at found
  rcases Option.or_eq_some_iff.mp found with slot | ⟨_, found⟩
  · exact (escrowed_ok slot).1
  · rcases Option.or_eq_some_iff.mp found with slot | ⟨_, slot⟩
    · exact (escrowed_ok slot).1
    · exact (escrowed_ok slot).1

theorem withdrawCommitmentSettled_ok {cap : ID} (ran : v.withdrawCommitmentSettled cap = .ok next) :
    ∃ index held, v.claims[index]? = some held ∧
      { v with claims := v.claims.set index { held with place := .wallet } } = next := by
  simp only [withdrawCommitmentSettled, bind_ok, check_ok, exists_const, need_ok, Prod.exists, pure_ok] at ran
  obtain ⟨_, _, index, held, slot, same⟩ := ran
  exact ⟨index, held, slotOf_ok slot, same⟩

theorem rotateCuratorByCurator_ok {cap newCap : ID} (ran : v.rotateCuratorByCurator cap newCap = .ok next) :
    ∃ breached, { v with
      claims := v.claims.map fun held => held.handedBack v.curatorCapId
      curatorCapId := newCap
      curatorCommitmentBreached := breached } = next := by
  simp only [rotateCuratorByCurator, bind_ok, pure_ok] at ran
  obtain ⟨_, _, same⟩ := ran
  exact ⟨_, same⟩

/-! ### Closing and settlement -/

theorem initiateCloseInternal_ok (ran : v.initiateCloseInternal = .ok next) :
    v.state = .opened ∧ { v with state := .closing } = next := by
  simpa only [initiateCloseInternal, bind_ok, check_ok, exists_const, pure_ok] using ran

theorem initiateClose_ok {cap : ID} (ran : v.initiateClose cap = .ok next) :
    v.state = .opened ∧ { v with state := .closing } = next := by
  simp only [initiateClose, bind_ok] at ran
  obtain ⟨_, _, closes⟩ := ran
  exact initiateCloseInternal_ok closes

theorem finalizeClose_ok (ran : v.finalizeClose = .ok next) :
    v.state = .closing ∧ { v with state := .closed } = next := by
  simp only [finalizeClose, bind_ok, check_ok, exists_const, pure_ok] at ran
  exact ⟨ran.1, ran.2.2.2.2⟩

theorem configure_ok {cap : ID} {change : VaultConfig → Result Error VaultConfig}
    (ran : v.configure cap change = .ok next) : ∃ config, change v.config = .ok config ∧ { v with config } = next := by
  simp only [configure, bind_ok, pure_ok] at ran
  obtain ⟨_, _, config, changed, same⟩ := ran
  exact ⟨config, changed, same⟩

theorem snapshotSettlement_ok {cfg : VaultProtocolConfig} {a : Appraisal Obj} {now : Nat}
    (ran : v.snapshotSettlement cfg a now = .ok next) :
    v.state = .closed ∧ v.settlement = none ∧ ∃ nav synced seniorNav juniorNav, v.consumeAppraisal a = .ok nav ∧
      v.syncCapital cfg nav now = .ok (synced, seniorNav, juniorNav) ∧ nav < u64Bound ∧
      { synced with
        settlement := some
          ⟨seniorNav, synced.book.seniorShares, juniorNav, synced.book.juniorShares, synced.book.activeJuniorGeneration, 0⟩
        capitalSeq := synced.capitalSeq + 1 } = next := by
  simp only [snapshotSettlement, castU64, bind_ok, check_ok, exists_const, Prod.exists, fit_ok, pure_ok] at ran
  obtain ⟨closed, unsettled, nav, consumed, synced, seniorNav, juniorNav, syncs, small, _, ⟨_, rfl⟩, _, ⟨_, rfl⟩, rfl⟩ := ran
  exact ⟨closed, unsettled, nav, synced, seniorNav, juniorNav, consumed, syncs, small, rfl⟩

theorem paySettlement_ok {cfg : VaultProtocolConfig} {t : TypeName} {tranche : Tranche} {generation shares basis : Nat}
    (ran : v.paySettlement cfg t tranche generation shares basis = .ok next) :
    ∃ pool entitlement fees purse, v.settlement = some pool ∧
      pool.entitlement tranche generation shares = .ok entitlement ∧
      crystallize entitlement basis v.config.curatorFeeBps cfg.protocolFeeBps = .ok fees ∧
      fees.protocolCut + (entitlement - fees.grossFee) ≤ v.purse.balances t ∧ fees.grossFee ≤ entitlement ∧
      purse.balances =
        Function.update v.purse.balances t (v.purse.balances t - (fees.protocolCut + (entitlement - fees.grossFee))) ∧
      v.purse.Moved purse ∧
      next = { v with
        settlement := some { pool with curatorFeesAccrued := pool.curatorFeesAccrued + fees.curatorNet }, purse } := by
  simp only [paySettlement, addU64, bind_ok, need_ok, fit_ok, sub_ok] at ran
  obtain ⟨pool, settled, entitlement, entitles, fees, crystallizes, _, ⟨_, rfl⟩, cut, cuts, _, ⟨enough, rfl⟩, pays⟩ := ran
  obtain ⟨purse, rfl, covered, balances, moved⟩ := payOut_twice cuts pays
  exact ⟨pool, entitlement, fees, purse, settled, entitles, crystallizes, covered, enough, balances, moved, rfl⟩

theorem redeemSettledPosition_ok {cfg : VaultProtocolConfig} {t : TypeName} {index : Nat}
    (ran : v.redeemSettledPosition cfg t index = .ok next) :
    t = v.config.accountingAsset ∧ ∃ p, v.claims[index]? = some ⟨p, .wallet⟩ ∧
      ({ v with claims := v.claims.eraseIdx index } : TradingVault Obj).paySettlement cfg t p.tranche p.capitalGeneration
        p.shares p.costBasis = .ok next := by
  simp only [redeemSettledPosition, bind_ok, check_ok, exists_const, walletPosition_ok] at ran
  obtain ⟨p, found, _, _, asset, pays⟩ := ran
  exact ⟨asset, p, found, pays⟩

theorem settleQueuedRequest_ok {cfg : VaultProtocolConfig} {t : TypeName} {seq : Nat}
    (ran : v.settleQueuedRequest cfg t seq = .ok next) :
    t = v.config.accountingAsset ∧
      ∃ request, ∃ found : v.queue.requests.get? seq = some request,
        ({ v with queue := v.queue.drop seq request found } : TradingVault Obj).paySettlement cfg t request.tranche
          request.capitalGeneration request.shares request.basis = .ok next := by
  simp only [settleQueuedRequest, bind_ok, check_ok, exists_const, Subtype.exists] at ran
  obtain ⟨_, _, asset, request, found, _, pays⟩ := ran
  exact ⟨asset, request, found, pays⟩

theorem claimSettlementCuratorFees_ok {cap : ID} {t : TypeName} (ran : v.claimSettlementCuratorFees cap t = .ok next) :
    t = v.config.accountingAsset ∧ ∃ pool purse, v.settlement = some pool ∧
      v.purse.takeBalanceInternal t pool.curatorFeesAccrued = .ok purse ∧
      { v with settlement := some { pool with curatorFeesAccrued := 0 }, purse } = next := by
  simp only [claimSettlementCuratorFees, bind_ok, need_ok, check_ok, exists_const, take_ok] at ran
  obtain ⟨_, _, pool, settled, asset, _, purse, taken, rfl⟩ := ran
  exact ⟨asset, pool, purse, settled, taken, rfl⟩

end TradingVault

end SuiOptions.Vault
