import SuiOptions.Exchange.BalanceManager

/-! Capital accounting of a trading vault: `capital.move` and `fees.move`.

The book holds two share supplies over one appraised value. An untranched vault
keeps its single supply on the junior side. Intermediate products are 256 bits
wide and never overflow; casts back and sums of 128 bits abort.
-/

set_option autoImplicit false

namespace SuiOptions.Vault

open Execution Move
open Exchange (ID Address)

abbrev TypeName := String

/-- The abort codes of the vault package and of what it calls. -/
inductive Error where
  -- `errors.move`
  | notCurator | wrongVault | vaultNotOpen | vaultNotClosing | vaultNotClosed | adapterNotAllowed | oracleNotAllowed
  | depositAssetMismatch | insufficientBalance | stillLocked | curatorFloor | feeTooHigh | appraisalIncomplete
  | appraisalMismatch | priceStale | priceAssetMismatch | positionMissing | alreadyAppraised | notAuthorized
  | configInvalid | forcedSessionTake | residualAssets | positionsOpen | unwindNotReady | priceInvalid | vaultDead
  | protocolPaused | depositsPaused | externalNotConfigured | externalBudgetExceeded | externalRateLimited
  | externalExposureOpen | wrongExternalOracle | externalAlreadySet | attestedLimitsExceeded | attestationDisabled
  | badAttestation | assetNotAllowed | attestationMissing | requestMissing | quoteAdapterNotEnabled | wrongTranche
  | mergeIncompatible | seniorBufferBreached | riskOff | resetNotEligible | resetNotReady | resetDepositInsufficient
  | resetAlreadyProposed | notSettled | alreadySettled | positionWiped | positionNotWiped | commitmentMissing
  | invalidSplit | depositsBlockedByState | queueSettled
  -- `options_core::errors`, `whitelist.move`, `vault_mm.move`
  | zeroAmount | ingressPaused | ingressRestricted | mmDisabled | wrongSource | recipientNotVault
  -- `equity_oracle.move`
  | notPoster | notSeeded | tooSoon | deltaTooLarge | stale | bookConfigInvalid | alreadySeeded | funded | noExternal
  -- the framework, and what a transaction may not do
  | keyAlreadyExists | keyDoesNotExist | noSuchObject | openPotato | clockBackwards
  deriving DecidableEq, Repr

def bpsDenom : Nat := 10000

def castU128 (a : Nat) : Result Error Nat := fit u128Bound a

/-- `mul_div` with a 256-bit product. -/
def mulDiv (a b c : Nat) : Result Error Nat := do
  check (0 < c) .zeroAmount
  castU128 (a * b / c)

/-! ### Fees and share conversion -/

structure Crystallized where
  profit : Nat
  grossFee : Nat
  protocolCut : Nat
  curatorNet : Nat
  deriving DecidableEq, Repr

def crystallize (value basis curatorFeeBps protocolFeeBps : Nat) : Result Error Crystallized := do
  let profit := value - basis
  let grossFee ← castU64 (profit * curatorFeeBps / bpsDenom)
  let protocolCut ← castU64 (grossFee * protocolFeeBps / bpsDenom)
  let curatorNet ← sub grossFee protocolCut
  pure ⟨profit, grossFee, protocolCut, curatorNet⟩

def claimValue (shares nav supply offset : Nat) : Result Error Nat := do
  let nav ← addU128 nav 1
  let supply ← addU128 supply offset
  let value ← div (shares * nav) supply
  castU64 value

def sharesForValue (value nav supply offset : Nat) : Result Error Nat := do
  let supply ← addU128 supply offset
  let nav ← addU128 nav 1
  castU128 (value * supply / nav)

/-! ### The book -/

inductive Tranche where
  | untranched
  | senior
  | junior
  deriving DecidableEq, Repr

inductive SeniorUpside where
  | preferredOnly
  | cappedParticipating (residualParticipationBps totalReturnCapBps : Nat)
  | uncappedParticipating (residualParticipationBps : Nat)
  deriving DecidableEq, Repr

inductive CapitalStructure where
  | untranched
  | seniorJunior (seniorHurdleBpsAnnual targetJuniorBps maintenanceJuniorBps : Nat) (upside : SeniorUpside)
  deriving DecidableEq, Repr

def CapitalStructure.isTranched : CapitalStructure → Bool
  | .untranched => false
  | .seniorJunior .. => true

def CapitalStructure.targetJuniorBps : CapitalStructure → Nat
  | .untranched => 0
  | .seniorJunior _ target _ _ => target

inductive RiskState where
  | healthy
  | coverageBreach
  | impaired
  | resetPending
  deriving DecidableEq, Repr

structure JuniorResetProposal where
  oldGeneration : Nat
  proposedAtMs : Nat
  executableAtMs : Nat
  recordedNav : Nat
  recordedSeniorClaim : Nat
  recordedRequiredDeposit : Nat
  deriving DecidableEq, Repr

structure TrancheBook where
  seniorShares : Nat
  juniorShares : Nat
  /-- Principal and accrued hurdle of the senior tranche. -/
  seniorClaim : Nat
  seniorPrincipalBasis : Nat
  lastAccrualMs : Nat
  activeJuniorGeneration : Nat
  impairedSinceMs : Option Nat
  riskState : RiskState
  resetProposal : Option JuniorResetProposal
  deriving DecidableEq, Repr

def msPerYear : Nat := 31536000000

def accrualCapMs : Nat := 63072000000

def resetSeasoningMs : Nat := 604800000

namespace TrancheBook

def new (nowMs : Nat) : TrancheBook :=
  { seniorShares := 0, juniorShares := 0, seniorClaim := 0, seniorPrincipalBasis := 0, lastAccrualMs := nowMs
    activeJuniorGeneration := 0, impairedSinceMs := none, riskState := .healthy, resetProposal := none }

variable (book : TrancheBook)

def supplyOf : Tranche → Nat
  | .senior => book.seniorShares
  | _ => book.juniorShares

def isHealthy : Bool := book.riskState = .healthy

/-- Simple hurdle accrual on the claim, the elapsed time capped. -/
def accrue (cs : CapitalStructure) (nowMs : Nat) : Result Error TrancheBook :=
  match cs with
  | .untranched => pure { book with lastAccrualMs := nowMs }
  | .seniorJunior hurdleBps _ _ _ =>
    if nowMs ≤ book.lastAccrualMs then pure book
    else if hurdleBps = 0 ∨ book.seniorClaim = 0 then pure { book with lastAccrualMs := nowMs }
    else do
      let accrual ← castU128 (book.seniorClaim * hurdleBps * min (nowMs - book.lastAccrualMs) accrualCapMs /
        bpsDenom / msPerYear)
      let claim ← addU128 book.seniorClaim accrual
      pure { book with lastAccrualMs := nowMs, seniorClaim := claim }

def participation (upside : SeniorUpside) (residual preferred principalBasis : Nat) : Nat :=
  match upside with
  | .preferredOnly => 0
  | .cappedParticipating residualBps capBps =>
    min (residual * residualBps / bpsDenom) (principalBasis * capBps / bpsDenom - preferred)
  | .uncappedParticipating residualBps => residual * residualBps / bpsDenom

def waterfall (cs : CapitalStructure) (totalNav accruedSeniorClaim principalBasis : Nat) :
    Result Error (Nat × Nat) :=
  match cs with
  | .untranched => pure (0, totalNav)
  | .seniorJunior _ _ _ upside => do
    let preferred := min totalNav accruedSeniorClaim
    let extra ← castU128 (participation upside (totalNav - preferred) preferred principalBasis)
    let senior ← addU128 preferred extra
    let junior ← sub totalNav senior
    pure (senior, junior)

def updateRiskState (cs : CapitalStructure) (totalNav juniorNav nowMs : Nat) : TrancheBook :=
  match cs with
  | .untranched => { book with riskState := .healthy }
  | .seniorJunior _ _ maintenanceBps _ =>
    if 0 < book.seniorShares ∧ totalNav < book.seniorClaim then
      { book with
        impairedSinceMs := some (book.impairedSinceMs.getD nowMs)
        riskState := if book.resetProposal.isSome then .resetPending else .impaired }
    else
      -- a recovery cancels a pending reset
      { book with
        impairedSinceMs := none
        resetProposal := none
        riskState := if 0 < book.seniorShares ∧ 0 < totalNav ∧ juniorNav * bpsDenom < maintenanceBps * totalNav
          then .coverageBreach else .healthy }

def onDeposit (tranche : Tranche) (value shares : Nat) : Result Error TrancheBook :=
  match tranche with
  | .senior => do
    let seniorShares ← addU128 book.seniorShares shares
    let seniorClaim ← addU128 book.seniorClaim value
    let seniorPrincipalBasis ← addU128 book.seniorPrincipalBasis value
    pure { book with seniorShares, seniorClaim, seniorPrincipalBasis }
  | _ => do
    let juniorShares ← addU128 book.juniorShares shares
    pure { book with juniorShares }

/-- Senior burns reduce the claim against the locked batch and the basis against the current one. -/
def onFulfill (tranche : Tranche) (shares lockedClaim lockedSeniorSupply : Nat) : Result Error TrancheBook :=
  match tranche with
  | .senior => do
    let seniorShares ← sub book.seniorShares shares
    if lockedSeniorSupply = 0 then pure { book with seniorShares }
    else
      let reduction ← castU128 (lockedClaim * shares / lockedSeniorSupply)
      let principalCut ← castU128 (book.seniorPrincipalBasis * shares / lockedSeniorSupply)
      pure { book with
        seniorShares
        seniorClaim := book.seniorClaim - reduction
        seniorPrincipalBasis := book.seniorPrincipalBasis - principalCut }
  | _ => do
    let juniorShares ← sub book.juniorShares shares
    pure { book with juniorShares }

def onFeeMint (tranche : Tranche) (mintedShares curatorNet : Nat) : Result Error TrancheBook :=
  book.onDeposit tranche curatorNet mintedShares

def proposeReset (nowMs recordedNav recordedSeniorClaim recordedRequiredDeposit : Nat) : Result Error TrancheBook := do
  check (book.resetProposal = none) .resetAlreadyProposed
  let impairedSince ← need book.impairedSinceMs (.code .keyDoesNotExist)
  let seasoned ← addU64 impairedSince resetSeasoningMs
  let noticed ← addU64 nowMs resetSeasoningMs
  pure { book with
    riskState := .resetPending
    resetProposal := some
      { oldGeneration := book.activeJuniorGeneration, proposedAtMs := nowMs, executableAtMs := max seasoned noticed
        recordedNav, recordedSeniorClaim, recordedRequiredDeposit } }

def executeReset (mintedShares : Nat) : Result Error TrancheBook := do
  let activeJuniorGeneration ← addU64 book.activeJuniorGeneration 1
  pure { book with
    activeJuniorGeneration
    juniorShares := mintedShares
    impairedSinceMs := none
    resetProposal := none
    riskState := .healthy }

end TrancheBook

def minResetDeposit (totalNav accruedClaim targetJuniorBps : Nat) : Result Error Nat := do
  let oneMinusT ← sub bpsDenom targetJuniorBps
  if accruedClaim * bpsDenom ≤ totalNav * oneMinusT then pure 0
  else
    let quotient ← div (accruedClaim * bpsDenom - totalNav * oneMinusT + oneMinusT - 1) oneMinusT
    castU128 quotient

end SuiOptions.Vault
