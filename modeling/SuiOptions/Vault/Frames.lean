import SuiOptions.Vault.Payments

/-! What the steps of a vault leave alone. -/

set_option autoImplicit false

namespace SuiOptions.Vault

open Execution Move
open Exchange (ID Address DomainState)

variable {Obj : Type} {v next : TradingVault Obj}

/-- The part of the external account that limits a release: its daily share, and the window. -/
def TradingVault.releaseTerms (v : TradingVault Obj) : Option (Nat × Nat × Nat) :=
  v.external.map fun ext => (ext.dailyReleaseBps, ext.releasedInWindow, ext.windowStartMs)

def Call.registers : Call Obj → Bool
  | .setExternalAccount .. | .setExternalAccountAttested .. | .clearExternalAccount => true
  | _ => false

def Use.released : Use → Option Nat
  | .releaseExternal _ _ amount => some amount
  | _ => none

/-- Only a call that consumes an appraisal touches the book, none touches the capital structure, and only a
registration touches the terms of a release. -/
theorem Call.frame {env : Env} {c : Call Obj} (ran : c.run env v = .ok next) :
    next.book = v.book ∧ next.capital = v.capital ∧ (c.registers = false → next.releaseTerms = v.releaseTerms) := by
  cases c with
  | splitPosition index shares id =>
    obtain ⟨_, _, _, _, _, rfl⟩ := TradingVault.splitPosition_ok ran
    exact ⟨rfl, rfl, fun _ => rfl⟩
  | mergePositions index other =>
    obtain ⟨_, _, _, _, _, _, _, rfl⟩ := TradingVault.mergePositions_ok ran
    exact ⟨rfl, rfl, fun _ => rfl⟩
  | requestWithdraw sender index payoutAsset =>
    obtain ⟨_, _, _, _, _, _, _, rfl⟩ := TradingVault.requestWithdraw_ok ran
    exact ⟨rfl, rfl, fun _ => rfl⟩
  | amendPayoutAsset sender seq payoutAsset =>
    obtain ⟨_, _, rfl⟩ := TradingVault.amendPayoutAsset_ok ran
    exact ⟨rfl, rfl, fun _ => rfl⟩
  | session kind adapter ops =>
    obtain ⟨_, _, _, rfl, _, _, _⟩ := TradingVault.session_ok ran
    exact ⟨rfl, rfl, fun _ => rfl⟩
  | receivePosition adapter id object =>
    obtain ⟨_, _, rfl⟩ := TradingVault.receivePosition_ok ran
    exact ⟨rfl, rfl, fun _ => rfl⟩
  | receiveCoin adapter t amount =>
    obtain ⟨_, rfl, _, _⟩ := TradingVault.receiveCoin_ok ran
    exact ⟨rfl, rfl, fun _ => rfl⟩
  | mmRelease source recipient t amount =>
    obtain ⟨_, _, _, rfl⟩ := TradingVault.mmRelease_ok ran
    exact ⟨rfl, rfl, fun _ => rfl⟩
  | setExternalAccount account equityOracle budgetBps dailyReleaseBps =>
    obtain ⟨_, rfl, _⟩ := TradingVault.setExternalAccount_ok ran
    exact ⟨rfl, rfl, fun other => by cases other⟩
  | setExternalAccountAttested cap account equityOracle budgetBps dailyReleaseBps signed =>
    obtain ⟨_, rfl, _⟩ := TradingVault.setExternalAccountAttested_ok ran
    exact ⟨rfl, rfl, fun other => by cases other⟩
  | clearExternalAccount =>
    obtain ⟨_, rfl⟩ := TradingVault.clearExternalAccount_ok ran
    exact ⟨rfl, rfl, fun other => by cases other⟩
  | returnExternal sender t amount =>
    obtain ⟨_, _, known, _, _, _, rfl⟩ := TradingVault.returnExternal_ok ran
    exact ⟨rfl, rfl, fun _ => by rw [TradingVault.releaseTerms, TradingVault.releaseTerms, known]; rfl⟩
  | burnWipedPosition index =>
    obtain ⟨_, _, _, rfl⟩ := TradingVault.burnWipedPosition_ok ran
    exact ⟨rfl, rfl, fun _ => rfl⟩
  | withdrawCommitmentSettled cap =>
    obtain ⟨_, _, _, rfl⟩ := TradingVault.withdrawCommitmentSettled_ok ran
    exact ⟨rfl, rfl, fun _ => rfl⟩
  | rotateCuratorByCurator cap newCap =>
    obtain ⟨_, rfl⟩ := TradingVault.rotateCuratorByCurator_ok ran
    exact ⟨rfl, rfl, fun _ => rfl⟩
  | initiateClose cap =>
    obtain ⟨_, rfl⟩ := TradingVault.initiateClose_ok ran
    exact ⟨rfl, rfl, fun _ => rfl⟩
  | initiateCloseAdmin =>
    obtain ⟨_, rfl⟩ := TradingVault.initiateCloseInternal_ok ran
    exact ⟨rfl, rfl, fun _ => rfl⟩
  | finalizeClose =>
    obtain ⟨_, rfl⟩ := TradingVault.finalizeClose_ok ran
    exact ⟨rfl, rfl, fun _ => rfl⟩
  | redeemSettledPosition t index =>
    obtain ⟨_, _, _, pays⟩ := TradingVault.redeemSettledPosition_ok ran
    obtain ⟨_, _, _, _, _, _, _, _, _, _, _, rfl⟩ := TradingVault.paySettlement_ok pays
    exact ⟨rfl, rfl, fun _ => rfl⟩
  | settleQueuedRequest t seq =>
    obtain ⟨_, _, _, pays⟩ := TradingVault.settleQueuedRequest_ok ran
    obtain ⟨_, _, _, _, _, _, _, _, _, _, _, rfl⟩ := TradingVault.paySettlement_ok pays
    exact ⟨rfl, rfl, fun _ => rfl⟩
  | claimSettlementCuratorFees cap t =>
    obtain ⟨_, _, _, _, _, rfl⟩ := TradingVault.claimSettlementCuratorFees_ok ran
    exact ⟨rfl, rfl, fun _ => rfl⟩
  | configure cap setting =>
    obtain ⟨_, _, rfl⟩ := TradingVault.configure_ok ran
    exact ⟨rfl, rfl, fun _ => rfl⟩

open TradingVault in
/-- No use of an appraisal touches the capital structure or the queue, and only a release the external account. -/
theorem Use.frame {env : Env} {a : Appraisal Obj} {u : Use} (ran : u.run env v a = .ok next) :
    next.capital = v.capital ∧ next.queue = v.queue ∧ (u.released = none → next.external = v.external) := by
  have synced : ∀ {w last : TradingVault Obj}, SyncFrame v w →
      last.capital = w.capital ∧ last.queue = w.queue ∧ (u.released = none → last.external = w.external) →
      last.capital = v.capital ∧ last.queue = v.queue ∧ (u.released = none → last.external = v.external) :=
    fun frame same =>
      ⟨same.1.trans frame.capital, same.2.1.trans frame.queue, fun none => (same.2.2 none).trans frame.external⟩
  cases u with
  | crankAppraisal =>
    obtain ⟨_, _, rfl⟩ := crankAppraisal_ok ran
    exact ⟨rfl, rfl, fun _ => rfl⟩
  | crankCapital =>
    obtain ⟨_, _, _, _, syncs⟩ := crankCapital_ok ran
    exact synced (syncCapital_frame syncs) ⟨rfl, rfl, fun _ => rfl⟩
  | deposit sender t amount att tranche id =>
    obtain ⟨_, _, _, deposited, rfl⟩ := deposit_ok ran
    obtain ⟨_, _, _, _, _, _, _, _, _, syncs, issued⟩ := depositInternal_ok deposited
    exact synced (syncCapital_frame syncs) ⟨issued.capital, issued.queue, fun _ => issued.external⟩
  | depositIntoCommitment sender cap t amount att id =>
    obtain ⟨_, _, _, _, _, deposited, funds, rfl⟩ := depositIntoCommitment_ok ran
    obtain ⟨_, rfl, _⟩ := fundCommitment_ok funds
    obtain ⟨_, _, _, _, _, _, _, _, _, syncs, issued⟩ := depositInternal_ok deposited
    exact synced (syncCapital_frame syncs) ⟨issued.capital, issued.queue, fun _ => issued.external⟩
  | releaseExternal cap t amount =>
    obtain ⟨_, _, _, _, _, _, _, _, _, _, syncs, _, _, _, rfl⟩ := releaseExternal_ok ran
    exact synced (syncCapital_frame syncs) ⟨rfl, rfl, fun none => by cases none⟩
  | proposeJuniorReset =>
    obtain ⟨_, _, _, _, _, _, _, _, syncs, _, rfl⟩ := proposeJuniorReset_ok ran
    exact synced (syncCapital_frame syncs) ⟨rfl, rfl, fun _ => rfl⟩
  | executeJuniorReset sender t amount id =>
    obtain ⟨_, _, _, _, _, _, _, _, _, syncs, _, _, _, _, _, rfl⟩ := executeJuniorReset_ok ran
    exact synced (syncCapital_frame syncs) ⟨rfl, rfl, fun _ => rfl⟩
  | releaseCommitment cap shares id =>
    obtain ⟨_, _, _, _, _, _, _, _, syncs, splits, rfl⟩ := releaseCommitment_ok ran
    refine synced (syncCapital_frame syncs) ?_
    obtain ⟨_, _, _, rfl | ⟨_, _, _, rfl⟩⟩ := splitCommitment_ok splits <;> exact ⟨rfl, rfl, fun _ => rfl⟩
  | snapshotSettlement =>
    obtain ⟨_, _, _, _, _, _, _, syncs, _, rfl⟩ := snapshotSettlement_ok ran
    exact synced (syncCapital_frame syncs) ⟨rfl, rfl, fun _ => rfl⟩

namespace World

open TradingVault

variable {w after : World Obj} {action : Action Obj}

theorem Moves.capital {next : TradingVault Obj} (moves : Moves w action next) : next.capital = w.vault.capital := by
  cases moves with
  | call calls => exact (Call.frame calls).2.1
  | use opened uses => exact (Use.frame uses).1
  | beginFulfillment opened begins =>
    obtain ⟨_, _, _, _, _, _, syncs, _, _⟩ := beginFulfillment_ok begins
    exact (syncCapital_frame syncs).capital
  | fulfillNext opened fulfills =>
    rcases fulfillNext_ok fulfills with ⟨rfl, _⟩ | ⟨receipt, _, paid⟩
    · rfl
    · exact paid.from.capital
  | still => rfl

end World

end SuiOptions.Vault
