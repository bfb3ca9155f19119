import SuiOptions.Exchange.Settlement

/-! The rest of the public calls of the exchange (legs of an obligation,
cancellation, collection, administration, managers) and the runs of a market. -/

set_option autoImplicit false

namespace SuiOptions.Exchange

open Execution Move

namespace FillObligation

/-- The bookkeeping of `provide_base` and `provide_quote`. -/
def provide (ob : FillObligation) (side : Side) (funds : Nat) : Result Error FillObligation := do
  check ((ob.leg side).provided = false) .alreadyProvided
  check (funds = (ob.leg side).owes) .legAmountMismatch
  let total ← addU64 (ob.pool side) funds
  pure { ob with
    pool := Function.update ob.pool side total
    leg := Function.update ob.leg side { ob.leg side with provided := true } }

/-- `take_quote_due` for the base leg and `take_base_due` for the quote leg. -/
def takeDue (ob : FillObligation) (side : Side) : Result Error (Nat × FillObligation) := do
  check ((ob.leg side.other).provided = true) .notProvided
  check ((ob.leg side).collected = false) .alreadyCollected
  check ((ob.leg side).due ≤ ob.pool side.other) .notEnough
  pure ((ob.leg side).due, { ob with
    pool := Function.update ob.pool side.other (ob.pool side.other - (ob.leg side).due)
    leg := Function.update ob.leg side { ob.leg side with collected := true } })

def gross (ob : FillObligation) (side : Side) : Nat := (ob.leg side).due + ob.fee side.other

end FillObligation

namespace Market

variable (natives : Natives) (s : Market)

/-! ### Legs -/

def paidIn (index : Nat) (side : Side) (ob paid : FillObligation) : Market :=
  { s with
    obligations := s.obligations.set index paid
    tally := noteFor s.tally (ob.orderOf side) ⟨0, (ob.leg side).owes, 0⟩ }

def paidOut (index : Nat) (side : Side) (ob paid : FillObligation) : Market :=
  { s with
    obligations := s.obligations.set index paid
    tally := noteFor s.tally (ob.orderOf side) ⟨0, 0, ob.gross side⟩ }

def provideLeg (side : Side) (index funds : Nat) : Result Error Market := do
  let ob ← s.obligation index
  let paid ← ob.provide side funds
  pure (s.paidIn index side ob paid)

def provideBase := provideLeg s .base

def provideQuote := provideLeg s .quote

def provideLegFromManager (side : Side) (index : Nat) (id : ID) : Result Error Market := do
  let ob ← s.obligation index
  let bm ← s.manager id
  check ((ob.leg side).escrow = .manager id) .wrongEscrow
  let bm ← bm.debit (s.registry.token side) (ob.leg side).owes
  let paid ← ob.provide side (ob.leg side).owes
  pure { s.paidIn index side ob paid with managers := Function.update s.managers id (some bm) }

def provideBaseFromManager := provideLegFromManager s .base

def provideQuoteFromManager := provideLegFromManager s .quote

def collectLegToManager (side : Side) (index : Nat) (id : ID) : Result Error Market := do
  let ob ← s.obligation index
  let bm ← s.manager id
  check ((ob.leg side).escrow = .manager id) .wrongEscrow
  let (due, paid) ← ob.takeDue side
  let bm ← bm.credit (s.registry.token side.other) due
  pure { s.paidOut index side ob paid with managers := Function.update s.managers id (some bm) }

def collectQuoteToManager := collectLegToManager s .base

def collectBaseToManager := collectLegToManager s .quote

/-- Returns the balance released to a leg bound to `escrow`: the holder of the
manager's cap, or the transaction itself. -/
def collectLeg (side : Side) (index : Nat) (escrow : EscrowBinding) : Result Error (Nat × Market) := do
  let ob ← s.obligation index
  check ((ob.leg side).escrow = escrow) .wrongEscrow
  let (due, paid) ← ob.takeDue side
  pure (due, s.paidOut index side ob paid)

def collectQuoteWithCap (index : Nat) (capId : ID) := collectLeg s .base index (.manager capId)

def collectBaseWithCap (index : Nat) (capId : ID) := collectLeg s .quote index (.manager capId)

def collectQuoteBearer (index : Nat) := collectLeg s .base index .bearer

def collectBaseBearer (index : Nat) := collectLeg s .quote index .bearer

def finish (index : Nat) : Result Error Market := do
  let ob ← s.obligation index
  check (ob.registryId = s.registry.id) .registryMismatch
  check ((ob.leg .base).provided = true ∧ (ob.leg .base).collected = true ∧
    (ob.leg .quote).provided = true ∧ (ob.leg .quote).collected = true) .obligationIncomplete
  check (ob.pool .base = ob.fee .base) .legAmountMismatch
  check (ob.pool .quote = ob.fee .quote) .legAmountMismatch
  let reg ← s.registry.depositFee .base (ob.pool .base)
  let reg ← reg.depositFee .quote (ob.pool .quote)
  pure { s with
    registry := reg
    obligations := s.obligations.eraseIdx index
    events := s.events ++ ob.fills.map fun fill => { fill with registry := ob.registryId } }

/-! ### Cancellation -/

def cancel (orderBytes : Bytes) : Result Error Market := do
  let ord ← fromBytes orderBytes
  check (s.sender = ord.maker) .notMaker
  pure { s with
    registry := s.registry.markCancelled (digest natives ord s.registry.id) ord.expiryMs.toNat }

/-- The part `cancel_up_to` and `cancel_up_to_for_manager` share. -/
def voidSalts (maker : Address) (minValidSalt : Nat) : Result Error Market := do
  check (s.registry.watermark maker ≤ minValidSalt) .watermarkRegression
  pure { s with registry := s.registry.raiseWatermark maker minValidSalt }

def cancelUpTo (minValidSalt : Nat) : Result Error Market := s.voidSalts s.sender minValidSalt

def cancelUpToForManager (id : ID) (minValidSalt : Nat) : Result Error Market := do
  let bm ← s.manager id
  check (bm.isApprovedSigner s.sender = true) .notMaker
  s.voidSalts bm.owner minValidSalt

/-! ### Calls -/

inductive AdminCall where
  | setPaused (paused : Bool)
  | setFeeBps (feeBps : Nat)
  | setFeeTier (account : Address) (feeBps : Nat)
  | clearFeeTier (account : Address)
  | sweepBase
  | sweepQuote

def admin : AdminCall → Result Error SettlementRegistry
  | .setPaused paused => pure (s.registry.setPaused paused)
  | .setFeeBps feeBps => s.registry.setFeeBps feeBps
  | .setFeeTier account feeBps => s.registry.setFeeTier account feeBps
  | .clearFeeTier account => pure (s.registry.clearFeeTier account)
  | .sweepBase => pure (s.registry.takeFee .base)
  | .sweepQuote => pure (s.registry.takeFee .quote)

inductive ManagerCall where
  | deposit (token : String) (amount : Nat)
  | depositWithCap (capId : ID) (token : String) (amount : Nat)
  | withdraw (token : String) (amount : Nat)
  | withdrawWithCap (capId : ID) (token : String) (amount : Nat)
  | addSigner (signer : Address)
  | addSignerWithCap (capId : ID) (signer : Address)
  | removeSigner (signer : Address)
  | removeSignerWithCap (capId : ID) (signer : Address)

def manage (id : ID) (bm : BalanceManager) : ManagerCall → Result Error BalanceManager
  | .deposit token amount => bm.deposit s.domain s.sender token amount
  | .depositWithCap capId token amount => bm.depositWithCap s.domain s.sender id capId token amount
  | .withdraw token amount => bm.withdraw s.sender token amount
  | .withdrawWithCap capId token amount => bm.withdrawWithCap id capId token amount
  | .addSigner signer => bm.addSigner s.sender signer
  | .addSignerWithCap capId signer => bm.addSignerWithCap id capId signer
  | .removeSigner signer => bm.removeSigner s.sender signer
  | .removeSignerWithCap capId signer => bm.removeSignerWithCap id capId signer

inductive WhitelistCall where
  | addMember (member : Address)
  | removeMember (member : Address)
  | setWhitelistEnabled (enabled : Bool)
  | setIngressPaused (paused : Bool)

def gate (domain : DomainState) : WhitelistCall → Result Error DomainState
  | .addMember member => do
    check (member ∉ domain.members) .keyAlreadyExists
    pure { domain with members := domain.members ++ [member] }
  | .removeMember member => do
    check (member ∈ domain.members) .keyDoesNotExist
    pure { domain with members := domain.members.erase member }
  | .setWhitelistEnabled enabled => pure { domain with enabled }
  | .setIngressPaused paused => pure { domain with paused }

/-- The public calls; `index` is the place of an obligation among those the transaction holds. -/
inductive Call where
  | fillLimitOrder (makerBm : ID) (orderBytes signature publicKey : Bytes)
      (takerCoin takerFillAmount minMakerAmountOut : Nat)
  | fillLimitOrderReverse (makerBm : ID) (orderBytes signature publicKey : Bytes)
      (takerCoin takerFillAmount minMakerAmountOut : Nat)
  | matchOrders (bmA bmB : ID) (orderABytes sigA pkA orderBBytes sigB pkB : Bytes) (fillBaseAmount : Nat)
  | beginFill (makerBm : ID) (orderBytes signature publicKey : Bytes) (takerFillAmount minMakerAmountOut : Nat)
  | beginFillReverse (makerBm : ID) (orderBytes signature publicKey : Bytes)
      (takerFillAmount minMakerAmountOut : Nat)
  | beginMatch (bmA bmB : ID) (orderABytes sigA pkA orderBBytes sigB pkB : Bytes) (fillBaseAmount : Nat)
  | provideBase (index funds : Nat)
  | provideQuote (index funds : Nat)
  | provideBaseFromManager (index : Nat) (bm : ID)
  | provideQuoteFromManager (index : Nat) (bm : ID)
  | collectQuoteToManager (index : Nat) (bm : ID)
  | collectQuoteWithCap (index : Nat) (capId : ID)
  | collectQuoteBearer (index : Nat)
  | collectBaseToManager (index : Nat) (bm : ID)
  | collectBaseWithCap (index : Nat) (capId : ID)
  | collectBaseBearer (index : Nat)
  | finish (index : Nat)
  | cancel (orderBytes : Bytes)
  | cancelUpTo (minValidSalt : Nat)
  | cancelUpToForManager (bm : ID) (minValidSalt : Nat)
  | gc (digests : List Bytes)
  | admin (what : AdminCall)
  | newManager (id : ID)
  | newWithOwnerCap (id : ID) (owner : Address)
  | manage (id : ID) (what : ManagerCall)
  | gate (what : WhitelistCall)

def addManager (id : ID) (owner : Address) : Result Error Market := do
  check (s.managers id = none) .objectExists
  pure { s with managers := Function.update s.managers id (some (BalanceManager.create owner)) }

def call : Call → Result Error Market
  | .fillLimitOrder makerBm orderBytes signature publicKey takerCoin takerFillAmount minMakerAmountOut =>
    (·.2.2) <$>
      s.fillLimitOrder natives makerBm orderBytes signature publicKey takerCoin takerFillAmount minMakerAmountOut
  | .fillLimitOrderReverse makerBm orderBytes signature publicKey takerCoin takerFillAmount minMakerAmountOut =>
    (·.2.2) <$> s.fillLimitOrderReverse natives makerBm orderBytes signature publicKey takerCoin takerFillAmount
      minMakerAmountOut
  | .matchOrders bmA bmB orderABytes sigA pkA orderBBytes sigB pkB fillBaseAmount =>
    s.matchOrders natives bmA bmB orderABytes sigA pkA orderBBytes sigB pkB fillBaseAmount
  | .beginFill makerBm orderBytes signature publicKey takerFillAmount minMakerAmountOut =>
    s.beginFill natives makerBm orderBytes signature publicKey takerFillAmount minMakerAmountOut
  | .beginFillReverse makerBm orderBytes signature publicKey takerFillAmount minMakerAmountOut =>
    s.beginFillReverse natives makerBm orderBytes signature publicKey takerFillAmount minMakerAmountOut
  | .beginMatch bmA bmB orderABytes sigA pkA orderBBytes sigB pkB fillBaseAmount =>
    s.beginMatch natives bmA bmB orderABytes sigA pkA orderBBytes sigB pkB fillBaseAmount
  | .provideBase index funds => s.provideBase index funds
  | .provideQuote index funds => s.provideQuote index funds
  | .provideBaseFromManager index bm => s.provideBaseFromManager index bm
  | .provideQuoteFromManager index bm => s.provideQuoteFromManager index bm
  | .collectQuoteToManager index bm => s.collectQuoteToManager index bm
  | .collectQuoteWithCap index capId => (·.2) <$> s.collectQuoteWithCap index capId
  | .collectQuoteBearer index => (·.2) <$> s.collectQuoteBearer index
  | .collectBaseToManager index bm => s.collectBaseToManager index bm
  | .collectBaseWithCap index capId => (·.2) <$> s.collectBaseWithCap index capId
  | .collectBaseBearer index => (·.2) <$> s.collectBaseBearer index
  | .finish index => s.finish index
  | .cancel orderBytes => s.cancel natives orderBytes
  | .cancelUpTo minValidSalt => s.cancelUpTo minValidSalt
  | .cancelUpToForManager bm minValidSalt => s.cancelUpToForManager bm minValidSalt
  | .gc digests => do pure { s with registry := ← SettlementRegistry.gc s.now s.registry digests }
  | .admin what => do pure { s with registry := ← s.admin what }
  | .newManager id => s.addManager id s.sender
  | .newWithOwnerCap id owner => s.addManager id owner
  | .manage id what => do
    let bm ← s.manager id
    let bm ← s.manage id bm what
    pure { s with managers := Function.update s.managers id (some bm) }
  | .gate what => do pure { s with domain := ← gate s.domain what }

inductive Event where
  | tick (now : Nat)
  | transaction (sender : Address)
  | call (what : Call)

/-- An obligation can be neither dropped nor stored, so a transaction ends when it
holds none; the clock stands still until then. -/
def step : Event → Result Error Market
  | .tick now => do
    check (s.obligations.isEmpty = true) .openObligation
    check (s.now ≤ now) .clockBackwards
    pure { s with now }
  | .transaction sender => do
    check (s.obligations.isEmpty = true) .openObligation
    pure { s with sender }
  | .call what => s.call natives what

def start (registry : SettlementRegistry) (domain : DomainState) (now : Nat) : Market :=
  { registry, domain, now
    managers := fun _ => none
    sender := 0
    obligations := []
    events := []
    tally := fun _ => ⟨0, 0, 0⟩ }

end Market

end SuiOptions.Exchange
