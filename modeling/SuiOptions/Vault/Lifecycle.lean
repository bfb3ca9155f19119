import SuiOptions.Vault.Fulfillment

/-! Sessions, sweeps, the external account, the junior reset, the commitment
escrow, closing and terminal settlement.

Every adapter opens and ends its session inside one call, so a session is one
step here: a list of moves under the adapter's tag.
-/

set_option autoImplicit false

namespace SuiOptions.Vault

open Execution Move
open Exchange (ID Address DomainState)

inductive SessionKind where
  | curator (cap : ID)
  | force
  | quote
  | crank
  deriving DecidableEq, Repr

inductive SessionOp (Obj : Type) where
  | take (t : TypeName) (amount : Nat)
  | put (t : TypeName) (amount : Nat)
  | putPosition (id : ID) (object : Obj)
  | takePosition (id : ID)

def releaseWindowMs : Nat := 86400000

def attestedMaxBudgetBps : Nat := 2000

def attestedMaxDailyReleaseBps : Nat := 1000

def ExternalAccount.registered (account : Address) (equityOracle : TypeName) (budgetBps dailyReleaseBps : Nat) :
    ExternalAccount :=
  { account, equityOracle, budgetBps, dailyReleaseBps, exposure := 0, releasedInWindow := 0, windowStartMs := 0 }

def ExternalAccount.rolled (ext : ExternalAccount) (now : Nat) : Result Error ExternalAccount := do
  let windowEnd ← addU64 ext.windowStartMs releaseWindowMs
  pure (if windowEnd ≤ now then { ext with windowStartMs := now, releasedInWindow := 0 } else ext)

def Held.handedBack (held : Held) (cap : ID) : Held :=
  match held.place with
  | .wallet => held
  | .commitment capId _ => if capId = cap then { held with place := .wallet } else held

namespace TradingVault

variable {Obj : Type} (v : TradingVault Obj)

/-! ### Sessions -/

def oldestHeadRequestedAt : Option Nat :=
  match earlier (v.queue.laneHeadSeq .senior) (v.queue.laneHeadSeq .junior) with
  | none => none
  | some seq => (v.queue.requests.get? seq).map (·.requestedAtMs)

/-- Force sessions open while the vault closes, or once the oldest request has waited too long. -/
def unwindReady (now : Nat) : Result Error Bool :=
  if v.state = .closing then pure true
  else match v.oldestHeadRequestedAt with
    | none => pure false
    | some requested => do
      let due ← addU64 requested v.config.unwindGraceMs
      pure (decide (due < now))

def openSession (kind : SessionKind) (adapters : List TypeName) (adapter : TypeName) (now : Nat) :
    Result Error (TradingVault Obj × Bool) :=
  match kind with
  | .curator cap => do
    v.assertCurrentCap cap
    check (v.state ≠ .closed) .vaultNotOpen
    check (adapter ∈ adapters) .adapterNotAllowed
    pure (v, v.isRiskOff)
  | .force => do
    let ready ← v.unwindReady now
    check (ready = true) .unwindNotReady
    pure (if v.state = .closing then v else v.advanceLanes, true)
  | .quote => do
    check (v.state = .opened) .vaultNotOpen
    check (v.isRiskOff = false) .riskOff
    check (adapter ∈ adapters) .adapterNotAllowed
    check (adapter ∈ v.config.quoteAdapters) .quoteAdapterNotEnabled
    pure (v, false)
  | .crank => pure (v, true)

def takePosition (adapter : TypeName) (id : ID) : Result Error (TradingVault Obj) :=
  if present : (v.custody.find id).isSome then do
    check (((v.custody.find id).get present).tag = adapter) .adapterNotAllowed
    pure { v with custody := v.custody.remove id present }
  else .error (.code .positionMissing)

def sessionOp (adapter : TypeName) (forced : Bool) : SessionOp Obj → Result Error (TradingVault Obj)
  | .take t amount => do
    check (forced = false) .forcedSessionTake
    check (0 < amount) .zeroAmount
    v.take t amount
  | .put t amount => if amount = 0 then pure v else v.put t amount
  | .putPosition id object => v.storePositionInternal adapter id object
  | .takePosition id => v.takePosition adapter id

def session (kind : SessionKind) (adapters : List TypeName) (adapter : TypeName) (now : Nat) (ops : List (SessionOp Obj)) :
    Result Error (TradingVault Obj) := do
  let (opened, forced) ← v.openSession kind adapters adapter now
  exec (fun w op => w.sessionOp adapter forced op) opened ops

/-! ### Sweeps, and the market maker's draw -/

def receivePosition (adapters : List TypeName) (adapter : TypeName) (id : ID) (object : Obj) :
    Result Error (TradingVault Obj) := do
  check (adapter ∈ adapters) .adapterNotAllowed
  v.storePositionInternal adapter id object

def receiveCoin (adapters : List TypeName) (adapter : TypeName) (t : TypeName) (amount : Nat) :
    Result Error (TradingVault Obj) := do
  check (adapter ∈ adapters) .adapterNotAllowed
  if amount = 0 then pure v else v.put t amount

/-- `release_for_mm` asks for the capital state only. -/
def releaseForMm (t : TypeName) (amount : Nat) : Result Error (TradingVault Obj) := do
  check (v.isRiskOff = false) .riskOff
  v.take t amount

/-- `vault_mm::release`, of a collateral request that a signed quote authorized. -/
def mmRelease (source recipient : ID) (t : TypeName) (amount : Nat) : Result Error (TradingVault Obj) := do
  check (v.config.mmReleaseEnabled = true) .mmDisabled
  check (source = v.id) .wrongSource
  check (recipient = v.id) .recipientNotVault
  v.releaseForMm t amount

/-! ### The external account -/

def setExternalAccount (oracles : List TypeName) (account : Address) (equityOracle : TypeName)
    (budgetBps dailyReleaseBps : Nat) : Result Error (TradingVault Obj) := do
  check (budgetBps ≤ bpsDenom ∧ dailyReleaseBps ≤ bpsDenom) .configInvalid
  check (equityOracle ∈ oracles) .oracleNotAllowed
  match v.external with
  | some ext => pure { v with external := some { ext with account, equityOracle, budgetBps, dailyReleaseBps } }
  | none => pure { v with external := some (.registered account equityOracle budgetBps dailyReleaseBps) }

/-- `signed` says whether the registrar's signature over vault and account verifies. -/
def setExternalAccountAttested (cfg : VaultProtocolConfig) (oracles : List TypeName) (cap : ID) (account : Address)
    (equityOracle : TypeName) (budgetBps dailyReleaseBps : Nat) (signed : Bool) : Result Error (TradingVault Obj) := do
  v.assertCurrentCap cap
  check (v.external = none) .externalAlreadySet
  check (budgetBps ≤ attestedMaxBudgetBps ∧ dailyReleaseBps ≤ attestedMaxDailyReleaseBps) .attestedLimitsExceeded
  check (equityOracle ∈ oracles) .oracleNotAllowed
  check (cfg.registrarPubkey ≠ []) .attestationDisabled
  check (signed = true) .badAttestation
  pure { v with external := some (.registered account equityOracle budgetBps dailyReleaseBps) }

def clearExternalAccount : Result Error (TradingVault Obj) := do
  let ext ← need v.external (.code .externalNotConfigured)
  check (ext.exposure = 0) .externalExposureOpen
  pure { v with external := none }

def releaseExternal (cfg : VaultProtocolConfig) (cap : ID) (a : Appraisal Obj) (t : TypeName) (amount now : Nat) :
    Result Error (TradingVault Obj) := do
  v.assertCurrentCap cap
  check (v.state = .opened) .vaultNotOpen
  check (t = v.config.accountingAsset) .depositAssetMismatch
  check (0 < amount) .zeroAmount
  let ext ← need v.external (.code .externalNotConfigured)
  let nav ← v.consumeAppraisal a
  let (w, _, _) ← v.syncCapital cfg nav now
  check (w.isRiskOff = false) .riskOff
  let ext ← ext.rolled now
  let budget ← mulU128 nav ext.budgetBps
  check (ext.exposure + amount ≤ budget / bpsDenom) .externalBudgetExceeded
  let daily ← mulU128 nav ext.dailyReleaseBps
  check (ext.releasedInWindow + amount ≤ daily / bpsDenom) .externalRateLimited
  let exposure ← addU64 ext.exposure amount
  let releasedInWindow ← addU64 ext.releasedInWindow amount
  ({ w with external := some { ext with exposure, releasedInWindow } } : TradingVault Obj).take t amount

def returnExternal (sender : Address) (t : TypeName) (amount : Nat) : Result Error (TradingVault Obj) := do
  let ext ← need v.external (.code .externalNotConfigured)
  check (t = v.config.accountingAsset) .depositAssetMismatch
  check (0 < amount) .zeroAmount
  check (sender = ext.account) .notAuthorized
  ({ v with external := some { ext with exposure := ext.exposure - amount } } : TradingVault Obj).put t amount

def recordExternalEquity (oracles : List TypeName) (a : Appraisal Obj) (oracle : TypeName) (equity : Nat) :
    Result Error (Appraisal Obj) := do
  let ext ← need v.external (.code .externalNotConfigured)
  check (oracle = ext.equityOracle) .wrongExternalOracle
  check (oracle ∈ oracles) .oracleNotAllowed
  check (a.externalPending = true) .alreadyAppraised
  let totalValue ← addU128 a.totalValue equity
  pure { a with externalPending := false, totalValue, legs := a.legs ++ [.equity equity] }

/-! ### The junior reset -/

def resetEligible (nav juniorNav : Nat) : Result Error Unit :=
  check (0 < v.book.juniorShares ∧ juniorNav = 0 ∧ nav < v.book.seniorClaim) .resetNotEligible

def proposeJuniorReset (cfg : VaultProtocolConfig) (a : Appraisal Obj) (now : Nat) : Result Error (TradingVault Obj) := do
  check (v.state = .opened) .vaultNotOpen
  check (v.capital.isTranched = true) .wrongTranche
  let nav ← v.consumeAppraisal a
  let (w, _, juniorNav) ← v.syncCapital cfg nav now
  w.resetEligible nav juniorNav
  let required ← minResetDeposit nav w.book.seniorClaim w.capital.targetJuniorBps
  check (required < u64Bound) .resetNotEligible
  let book ← w.book.proposeReset now nav w.book.seniorClaim required
  pure { w with book, capitalSeq := w.capitalSeq + 1 }

/-- New money opens a new junior generation; the old one is worth nothing from here on. -/
def executeJuniorReset (cfg : VaultProtocolConfig) (lp : DomainState) (sender : Address) (a : Appraisal Obj)
    (t : TypeName) (amount now : Nat) (id : ID) : Result Error (TradingVault Obj) := do
  assertIngressAllowed lp sender
  check (cfg.paused = false) .protocolPaused
  check (v.state = .opened) .vaultNotOpen
  check (t = v.config.accountingAsset) .depositAssetMismatch
  let nav ← v.consumeAppraisal a
  let (w, _, juniorNav) ← v.syncCapital cfg nav now
  let proposal ← need w.book.resetProposal (.code .resetNotReady)
  check (proposal.executableAtMs ≤ now) .resetNotReady
  w.resetEligible nav juniorNav
  check (0 < amount) .zeroAmount
  let required ← minResetDeposit nav w.book.seniorClaim w.capital.targetJuniorBps
  let total ← addU128 nav amount
  check (required ≤ amount ∧ w.book.seniorClaim < total) .resetDepositInsufficient
  let purse ← w.purse.putBalanceInternal t amount
  let minted ← sharesForValue amount 0 0 shareOffset
  let book ← w.book.executeReset minted
  let lockedUntilMs ← addU64 now w.config.lockupMs
  let position : VaultPosition :=
    { id, tranche := .junior, shares := minted, costBasis := amount, lockedUntilMs
      capitalGeneration := book.activeJuniorGeneration }
  pure { w with
    purse
    book
    capitalSeq := w.capitalSeq + 1
    curatorCommitmentBreached := true
    claims := w.claims ++ [⟨position, .wallet⟩] }

def burnWipedPosition (index : Nat) : Result Error (TradingVault Obj) := do
  let p ← v.walletPosition index
  check (v.wipedClaim p.tranche p.capitalGeneration = true) .positionNotWiped
  pure { v with claims := v.claims.eraseIdx index }

/-! ### The commitment escrow -/

/-- Take shares out of the escrow slot; zero takes them all. -/
def splitCommitment (shares : Nat) (id : ID) : Result Error (TradingVault Obj) := do
  let (index, held) ← need (v.escrowed v.curatorCapId v.commitmentTranche) (.code .commitmentMissing)
  if shares = 0 ∨ shares = held.position.shares then
    pure { v with claims := v.claims.set index { held with place := .wallet } }
  else
    let (parent, child) ← held.position.split shares id
    pure { v with claims := v.claims.set index { held with position := parent } ++ [⟨child, .wallet⟩] }

/-- While the vault is open, what remains must cover the commitment floor. -/
def releaseCommitment (cfg : VaultProtocolConfig) (cap : ID) (a : Appraisal Obj) (shares now : Nat) (id : ID) :
    Result Error (TradingVault Obj) := do
  v.assertCurrentCap cap
  check (v.state ≠ .closed) .vaultNotClosed
  let nav ← v.consumeAppraisal a
  let (w, _, juniorNav) ← v.syncCapital cfg nav now
  check (w.state = .opened → w.isRiskOff = false) .riskOff
  let released ← w.splitCommitment shares id
  if released.state = .opened then
    let breached ← released.commitmentBreached cfg nav juniorNav
    check (breached = false) .curatorFloor
    pure { released with curatorCommitmentBreached := breached }
  else pure released

def slotOf (cap : ID) : Option (Nat × Held) :=
  (v.escrowed cap .untranched).or ((v.escrowed cap .senior).or (v.escrowed cap .junior))

/-- Any cap, rotated out or not, pulls its own escrow once the vault is settled. -/
def withdrawCommitmentSettled (cap : ID) : Result Error (TradingVault Obj) := do
  check (v.state = .closed) .vaultNotClosed
  check (v.settlement.isSome) .notSettled
  let (index, held) ← need (v.slotOf cap) (.code .commitmentMissing)
  pure { v with claims := v.claims.set index { held with place := .wallet } }

def rotateCuratorByCurator (cap newCap : ID) : Result Error (TradingVault Obj) := do
  v.assertCurrentCap cap
  pure { v with
    claims := v.claims.map fun held => held.handedBack v.curatorCapId
    curatorCapId := newCap
    curatorCommitmentBreached := if v.state = .opened then true else v.curatorCommitmentBreached }

/-! ### Closing -/

def initiateCloseInternal : Result Error (TradingVault Obj) := do
  check (v.state = .opened) .vaultNotOpen
  pure { v with state := .closing }

def initiateClose (cap : ID) : Result Error (TradingVault Obj) := do
  v.assertCurrentCap cap
  v.initiateCloseInternal

def finalizeClose : Result Error (TradingVault Obj) := do
  check (v.state = .closing) .vaultNotClosing
  check (v.custody.positionCount = 0) .positionsOpen
  check (v.external.all fun ext => ext.exposure = 0) .externalExposureOpen
  check (v.purse.assetTypes = [] ∨ v.purse.assetTypes = [v.config.accountingAsset]) .residualAssets
  pure { v with state := .closed }

/-! ### Terminal settlement -/

def snapshotSettlement (cfg : VaultProtocolConfig) (a : Appraisal Obj) (now : Nat) : Result Error (TradingVault Obj) := do
  check (v.state = .closed) .vaultNotClosed
  check (v.settlement = none) .alreadySettled
  let nav ← v.consumeAppraisal a
  let (w, seniorNav, juniorNav) ← v.syncCapital cfg nav now
  check (nav < u64Bound) .configInvalid
  let seniorPool ← castU64 seniorNav
  let juniorPool ← castU64 juniorNav
  pure { w with
    settlement := some
      { seniorPool
        seniorSupply := w.book.seniorShares
        juniorPool
        juniorSupply := w.book.juniorShares
        activeJuniorGeneration := w.book.activeJuniorGeneration
        curatorFeesAccrued := 0 }
    capitalSeq := w.capitalSeq + 1 }

end TradingVault

namespace SettlementPool

variable (pool : SettlementPool)

def poolOf (tranche : Tranche) : Nat := if tranche = .senior then pool.seniorPool else pool.juniorPool

def supplyOf (tranche : Tranche) : Nat := if tranche = .senior then pool.seniorSupply else pool.juniorSupply

def entitlement (tranche : Tranche) (generation shares : Nat) : Result Error Nat :=
  if (tranche = .junior ∧ generation < pool.activeJuniorGeneration) ∨ pool.supplyOf tranche = 0 then pure 0
  else castU64 (pool.poolOf tranche * shares / pool.supplyOf tranche)

end SettlementPool

namespace TradingVault

variable {Obj : Type} (v : TradingVault Obj)

/-- Pay a claim: the curator's net fee stays in the vault as a claim on the pool. -/
def paySettlement (cfg : VaultProtocolConfig) (t : TypeName) (tranche : Tranche) (generation shares basis : Nat) :
    Result Error (TradingVault Obj) := do
  let pool ← need v.settlement (.code .notSettled)
  let entitlement ← pool.entitlement tranche generation shares
  let fees ← crystallize entitlement basis v.config.curatorFeeBps cfg.protocolFeeBps
  let curatorFeesAccrued ← addU64 pool.curatorFeesAccrued fees.curatorNet
  let accrued : TradingVault Obj := { v with settlement := some { pool with curatorFeesAccrued } }
  let cut ← accrued.payOut t fees.protocolCut
  let payout ← sub entitlement fees.grossFee
  cut.payOut t payout

def redeemSettledPosition (cfg : VaultProtocolConfig) (t : TypeName) (index : Nat) : Result Error (TradingVault Obj) := do
  let p ← v.walletPosition index
  check (v.state = .closed) .vaultNotClosed
  check (v.settlement.isSome) .notSettled
  check (t = v.config.accountingAsset) .depositAssetMismatch
  let consumed : TradingVault Obj := { v with claims := v.claims.eraseIdx index }
  consumed.paySettlement cfg t p.tranche p.capitalGeneration p.shares p.costBasis

def settleQueuedRequest (cfg : VaultProtocolConfig) (t : TypeName) (seq : Nat) : Result Error (TradingVault Obj) := do
  check (v.state = .closed) .vaultNotClosed
  check (v.settlement.isSome) .notSettled
  check (t = v.config.accountingAsset) .depositAssetMismatch
  let ⟨request, found⟩ ← v.queue.lookup seq .requestMissing
  let consumed : TradingVault Obj := { v with queue := v.queue.drop seq request found }
  consumed.paySettlement cfg t request.tranche request.capitalGeneration request.shares request.basis

def claimSettlementCuratorFees (cap : ID) (t : TypeName) : Result Error (TradingVault Obj) := do
  v.assertCurrentCap cap
  let pool ← need v.settlement (.code .notSettled)
  check (t = v.config.accountingAsset) .depositAssetMismatch
  check (0 < pool.curatorFeesAccrued) .zeroAmount
  ({ v with settlement := some { pool with curatorFeesAccrued := 0 } } : TradingVault Obj).take t pool.curatorFeesAccrued

end TradingVault

end SuiOptions.Vault
