import SuiOptions.Vault.Deposit

/-! Fulfillment batches: `begin_fulfillment` and `fulfill_next`.

A batch locks the ratio of each tranche and the prices of the payout assets.
Each call pays the oldest payable lane head out of the free balance, or does
nothing but skip removed lane entries.
-/

set_option autoImplicit false

namespace SuiOptions.Vault

open Execution Move
open Exchange (ID Address)

structure Fulfillment where
  seniorNav : Nat
  seniorSupply : Nat
  juniorNav : Nat
  juniorSupply : Nat
  lockedClaim : Nat
  juniorBlocked : Bool
  prices : Table TypeName Nat

namespace Fulfillment

def navOf (f : Fulfillment) (tranche : Tranche) : Nat := if tranche = .senior then f.seniorNav else f.juniorNav

def supplyOf (f : Fulfillment) (tranche : Tranche) : Nat := if tranche = .senior then f.seniorSupply else f.juniorSupply

end Fulfillment

structure Priced where
  value : Nat
  payout : Nat
  grossFee : Nat
  protocolCut : Nat
  deriving DecidableEq, Repr

/-- What `fulfill_next` paid, as its event reports it. -/
structure Receipt where
  seq : Nat
  request : WithdrawRequest
  priced : Priced
  payoutUnits : Nat
  cutUnits : Nat
  deriving DecidableEq, Repr

namespace TradingVault

variable {Obj : Type} (v : TradingVault Obj)

/-- One price per asset; a second one for the same asset aborts. -/
def lockPrices (cfg : VaultProtocolConfig) (now : Nat) : List PriceAttestation → Table TypeName Nat →
    Result Error (Table TypeName Nat)
  | [], prices => pure prices
  | att :: rest, prices => do
    check (att.quoteAsset = v.config.accountingAsset) .priceAssetMismatch
    assertAttestationFresh cfg att now
    check (prices.contains att.asset = false) .keyAlreadyExists
    lockPrices cfg now rest (prices.add att.asset att.price)

def beginFulfillment (cfg : VaultProtocolConfig) (a : Appraisal Obj) (atts : List PriceAttestation) (now : Nat) :
    Result Error (TradingVault Obj × Fulfillment) := do
  check (v.state ≠ .closed) .queueSettled
  let nav ← v.consumeAppraisal a
  let (w, seniorNav, juniorNav) ← v.syncCapital cfg nav now
  let total ← addU128 w.book.seniorShares w.book.juniorShares
  check (0 < total ∨ w.pendingWithdrawals = 0) .vaultDead
  let prices ← w.lockPrices cfg now atts []
  pure (w,
    { seniorNav
      seniorSupply := w.book.seniorShares
      juniorNav := if w.capital.isTranched then juniorNav else nav
      juniorSupply := w.book.juniorShares
      lockedClaim := w.book.seniorClaim
      juniorBlocked := w.capital.isTranched && !w.book.isHealthy
      prices })

/-! ### Choosing a request -/

/-- A head is payable in `p` if it asks for `p`, or in the accounting asset once it has waited. -/
def headPayable (f : Fulfillment) (juniorLane : Bool) (p : TypeName) (now : Nat) (request : WithdrawRequest) :
    Result Error Bool :=
  if juniorLane && f.juniorBlocked && decide (request.tranche = .junior) then pure false
  else if v.wipedClaim request.tranche request.capitalGeneration then pure true
  else if request.payoutAsset = p then pure true
  else if p = v.config.accountingAsset then do
    let due ← addU64 request.requestedAtMs v.config.unwindGraceMs
    pure (decide (due < now))
  else pure false

def payableHead (f : Fulfillment) (juniorLane : Bool) (p : TypeName) (now : Nat) : Option Nat → Result Error (Option Nat)
  | none => pure none
  | some seq => do
    let request ← need (v.queue.requests.get? seq) (.code .keyDoesNotExist)
    let payable ← v.headPayable f juniorLane p now request
    pure (if payable then some seq else none)

def earlier : Option Nat → Option Nat → Option Nat
  | none, second => second
  | some first, none => some first
  | some first, some second => some (if second < first then second else first)

def advanceLanes : TradingVault Obj := { v with queue := v.queue.advanced }

def chooseHead (f : Fulfillment) (p : TypeName) (now : Nat) : Result Error (Option Nat) := do
  let senior ← v.payableHead f false p now (v.queue.laneHeadSeq .senior)
  let junior ← v.payableHead f true p now (v.queue.laneHeadSeq .junior)
  pure (earlier senior junior)

/-! ### Paying it -/

def priceRequest (cfg : VaultProtocolConfig) (f : Fulfillment) (request : WithdrawRequest) : Result Error Priced :=
  if v.wipedClaim request.tranche request.capitalGeneration then pure ⟨0, 0, 0, 0⟩
  else do
    let value ← claimValue request.shares (f.navOf request.tranche) (f.supplyOf request.tranche) shareOffset
    let fees ← crystallize value request.basis v.config.curatorFeeBps cfg.protocolFeeBps
    let payout ← sub value fees.grossFee
    pure ⟨value, payout, fees.grossFee, fees.protocolCut⟩

def exitPrice (base : Nat) : Result Error Nat := do
  let scaled ← mulU128 base (bpsDenom + v.config.exitHaircutBps)
  pure (scaled / bpsDenom)

def unitsOf (price amount : Nat) : Result Error Nat := do
  let units ← mulDiv amount priceScale price
  castU64 units

/-- Payout and protocol cut in units of `p`. -/
def convert (f : Fulfillment) (p : TypeName) (request : WithdrawRequest) (priced : Priced) : Result Error (Nat × Nat) :=
  if p = v.config.accountingAsset ∨ v.wipedClaim request.tranche request.capitalGeneration = true then
    pure (priced.payout, priced.protocolCut)
  else do
    let base ← need (f.prices.get? p) (.code .attestationMissing)
    let price ← v.exitPrice base
    let payoutUnits ← unitsOf price priced.payout
    let cutUnits ← unitsOf price priced.protocolCut
    pure (payoutUnits, cutUnits)

/-- Credit fee shares to the escrow of the current cap, replacing what a reset wiped. -/
def creditCommitment (tranche : Tranche) (shares basis : Nat) (id : ID) : Result Error (TradingVault Obj) :=
  let fresh : Held :=
    ⟨{ id, tranche, shares, costBasis := basis, lockedUntilMs := 0, capitalGeneration := v.generationOf tranche },
      .commitment v.curatorCapId tranche⟩
  match v.escrowed v.curatorCapId tranche with
  | none => pure { v with claims := v.claims ++ [fresh] }
  | some (index, held) =>
    if held.position.tranche = .junior ∧ held.position.capitalGeneration < v.generationOf tranche then
      pure { v with claims := v.claims.set index fresh }
    else do
      let credited ← held.position.credit shares basis
      pure { v with claims := v.claims.set index { held with position := credited } }

def mintFee (f : Fulfillment) (tranche : Tranche) (curatorNet : Nat) (id : ID) : Result Error (TradingVault Obj) :=
  if curatorNet = 0 then pure v
  else do
    let minted ← sharesForValue curatorNet (f.navOf tranche) (f.supplyOf tranche) shareOffset
    if minted = 0 then pure v
    else
      let book ← v.book.onFeeMint tranche minted curatorNet
      let booked : TradingVault Obj := { v with book }
      booked.creditCommitment tranche minted curatorNet id

def burnShares (f : Fulfillment) (request : WithdrawRequest) : Result Error (TradingVault Obj) :=
  if v.wipedClaim request.tranche request.capitalGeneration then pure v
  else do
    let book ← v.book.onFulfill request.tranche request.shares f.lockedClaim f.seniorSupply
    pure { v with book }

/-- Pay out of the free balance; nothing moves for a zero amount. -/
def payOut (t : TypeName) (amount : Nat) : Result Error (TradingVault Obj) :=
  if amount = 0 then pure v else v.take t amount

def settleRequest (f : Fulfillment) (p : TypeName) (receipt : Receipt) (id : ID) : Result Error (TradingVault Obj) := do
  let curatorNet ← sub receipt.priced.grossFee receipt.priced.protocolCut
  let burned ← v.burnShares f receipt.request
  let minted ← burned.mintFee f receipt.request.tranche curatorNet id
  let cut ← ({ minted with capitalSeq := minted.capitalSeq + 1 } : TradingVault Obj).payOut p receipt.cutUnits
  cut.payOut p receipt.payoutUnits

/-- Pay a chosen request, if `p` suffices. -/
def fulfillRequest (cfg : VaultProtocolConfig) (f : Fulfillment) (p : TypeName) (seq : Nat) (id : ID) :
    Result Error (TradingVault Obj × Option Receipt) := do
  let ⟨request, found⟩ ← v.queue.lookup seq .keyDoesNotExist
  let priced ← v.priceRequest cfg f request
  let (payoutUnits, cutUnits) ← v.convert f p request priced
  if v.freeBalance p < payoutUnits + cutUnits then pure (v, none)
  else
    let receipt : Receipt := ⟨seq, request, priced, payoutUnits, cutUnits⟩
    let paid ← ({ v with queue := v.queue.drop seq request found } : TradingVault Obj).settleRequest f p receipt id
    pure (paid, some receipt)

/-- Pay one request, or return none: no head is payable in `p`, or `p` does not suffice. -/
def fulfillNext (cfg : VaultProtocolConfig) (f : Fulfillment) (p : TypeName) (now : Nat) (id : ID) :
    Result Error (TradingVault Obj × Option Receipt) := do
  let chosen ← v.chooseHead f p now
  match chosen with
  | none => pure (v.advanceLanes, none)
  | some seq => v.advanceLanes.fulfillRequest cfg f p seq id

end TradingVault

end SuiOptions.Vault
