import SuiOptions.Exchange.BalanceManager

/-! Settlement: `settlement.move`, function by function, and the market it acts on.

A run lists the calls of the transactions that commit, with the clock moving
between transactions. A call that aborts discards its whole transaction, so it
occurs in no run. Functions that the source writes once for each token of the
pair take the `Side` the maker (or the leg) sells.
-/

set_option autoImplicit false

namespace SuiOptions.Exchange

open Execution Move

inductive EscrowBinding where
  | manager (id : ID)
  | bearer
  deriving DecidableEq, Repr

structure LegState where
  escrow : EscrowBinding
  owes : Nat
  due : Nat
  provided : Bool
  collected : Bool
  deriving DecidableEq, Repr

structure PendingFill where
  digest : Bytes
  maker : Address
  taker : Address
  baseAmount : Nat
  quoteAmount : Nat
  makerFeeBps : Nat
  takerFeeBps : Nat
  makerFee : Nat
  takerFee : Nat
  makerSoldBase : Bool
  takerTokenFilledTotal : Nat
  timestampMs : Nat
  deriving DecidableEq, Repr

structure FillEvent extends PendingFill where
  registry : ID
  deriving DecidableEq, Repr

def PendingFill.side (fill : PendingFill) : Side := if fill.makerSoldBase then .base else .quote

/-- A validated fill whose funds have not all moved. `base_leg` and `quote_leg`,
the fees and the pools are functions of the side. -/
structure FillObligation where
  registryId : ID
  leg : Side → LegState
  fee : Side → Nat
  pool : Side → Nat
  fills : List PendingFill

/-- The order a leg settles; a bearer's leg settles none. -/
def FillObligation.orderOf (ob : FillObligation) (side : Side) : Option Bytes :=
  (ob.fills.find? (fun fill => fill.side = side)).map (·.digest)

@[ext] structure Tally where
  /-- Taker token recorded by `record_fill`. -/
  recorded : Nat
  /-- Maker token paid in for the order. -/
  given : Nat
  /-- Taker token the order's maker received, the maker's own fee included. -/
  received : Nat
  deriving DecidableEq, Repr

def Tally.add (t u : Tally) : Tally := ⟨t.recorded + u.recorded, t.given + u.given, t.received + u.received⟩

def note (tally : Bytes → Tally) (digest : Bytes) (moved : Tally) : Bytes → Tally :=
  Function.update tally digest ((tally digest).add moved)

def noteFor (tally : Bytes → Tally) (order : Option Bytes) (moved : Tally) : Bytes → Tally :=
  match order with
  | some digest => note tally digest moved
  | none => tally

structure Market where
  registry : SettlementRegistry
  managers : ID → Option BalanceManager
  domain : DomainState
  now : Nat
  /-- The sender of the running transaction and the obligations it holds. -/
  sender : Address
  obligations : List FillObligation
  events : List FillEvent
  tally : Bytes → Tally

/-! ### Terms -/

def bpsDenom : Nat := 10000

def muldivFloor (a b c : Nat) : Result Error Nat := do
  let num ← mulU128 a b
  let quotient ← div num c
  castU64 quotient

def muldivCeil (a b c : Nat) : Result Error Nat := do
  let num ← mulU128 a b
  let sum ← addU128 num c
  let sum ← sub sum 1
  let quotient ← div sum c
  castU64 quotient

def validate (natives : Natives) (reg : SettlementRegistry) (domain : DomainState) (now : Nat)
    (makerBmId : ID) (makerBm : BalanceManager) (orderBytes signature publicKey : Bytes) (side : Side)
    (expectedTaker txSender : Address) : Result Error (Order × Bytes) := do
  check (reg.paused = false) .paused
  domain.assertIngressAllowed txSender
  let ord ← fromBytes orderBytes
  check (ord.makerToken = reg.token side ∧ ord.takerToken = reg.token side.other) .tokenMismatch
  check (now < ord.expiryMs.toNat) .expired
  check (ord.taker = 0 ∨ ord.taker = expectedTaker) .takerRestricted
  check (ord.sender = 0 ∨ ord.sender = txSender) .senderRestricted
  check (makerBmId = ord.makerManagerId ∧ makerBm.owner = ord.maker) .badManager
  check (reg.watermark ord.maker < ord.salt.toNat) .saltVoided
  let hash := digest natives ord reg.id
  check (reg.isCancelled hash = false) .cancelled
  check (reg.filled hash < ord.takerAmount.toNat) .alreadyFilled
  let (ok, signer) ← verifySignature natives hash signature publicKey
  check (ok = true ∧ (signer = ord.maker ∨ makerBm.isApprovedSigner signer = true)) .badSignature
  pure (ord, hash)

structure FillTerms where
  fillT : Nat
  fillM : Nat
  makerFeeBps : Nat
  takerFeeBps : Nat
  makerFee : Nat
  takerFee : Nat

def fillTerms (reg : SettlementRegistry) (ord : Order) (hash : Bytes) (takerFillAmount : Nat) (taker : Address) :
    Result Error FillTerms := do
  let remaining ← sub ord.takerAmount.toNat (reg.filled hash)
  let fillT := min takerFillAmount remaining
  check (0 < fillT) .zeroFill
  let fillM ← muldivFloor fillT ord.makerAmount.toNat ord.takerAmount.toNat
  let makerFeeBps := min ord.maxFeeBps.toNat (reg.feeBpsFor ord.maker)
  let takerFeeBps := min ord.maxFeeBps.toNat (reg.feeBpsFor taker)
  let makerFee ← muldivFloor fillT makerFeeBps bpsDenom
  let takerFee ← muldivFloor fillM takerFeeBps bpsDenom
  pure { fillT, fillM, makerFeeBps, takerFeeBps, makerFee, takerFee }

/-- The quote amount of a match at the price of the resting order, which is the one
with the earlier salt, rounded in its favour. -/
def matchQuote (ordA ordB : Order) (fillBaseAmount : Nat) : Result Error Nat :=
  if ordA.salt ≤ ordB.salt then muldivCeil fillBaseAmount ordA.takerAmount.toNat ordA.makerAmount.toNat
  else muldivFloor fillBaseAmount ordB.makerAmount.toNat ordB.takerAmount.toNat

def matchTerms (ordA ordB : Order) (fillBaseAmount feeABps feeBBps : Nat) : Result Error (Nat × Nat × Nat) := do
  let makers ← mulU128 ordA.makerAmount.toNat ordB.makerAmount.toNat
  let takers ← mulU128 ordA.takerAmount.toNat ordB.takerAmount.toNat
  check (takers ≤ makers) .notCrossing
  check (0 < fillBaseAmount) .zeroFill
  let quoteAmount ← matchQuote ordA ordB fillBaseAmount
  check (0 < quoteAmount) .zeroFill
  let paidA ← mulU128 quoteAmount ordA.makerAmount.toNat
  let wantA ← mulU128 fillBaseAmount ordA.takerAmount.toNat
  check (wantA ≤ paidA) .limitViolated
  let paidB ← mulU128 quoteAmount ordB.takerAmount.toNat
  let limitB ← mulU128 fillBaseAmount ordB.makerAmount.toNat
  check (paidB ≤ limitB) .limitViolated
  let feeA ← muldivFloor quoteAmount feeABps bpsDenom
  let feeB ← muldivFloor fillBaseAmount feeBBps bpsDenom
  pure (quoteAmount, feeA, feeB)

namespace Market

variable (natives : Natives) (s : Market)

def manager (id : ID) : Result Error BalanceManager := need (s.managers id) (.code .noSuchObject)

def obligation (index : Nat) : Result Error FillObligation := need s.obligations[index]? (.code .noSuchObject)

/-! ### Fills of one order -/

/-- Validation, terms and the slippage guard, shared by the classic and the obligation path. -/
def quoteFill (side : Side) (makerBmId : ID) (makerBm : BalanceManager) (orderBytes signature publicKey : Bytes)
    (takerFillAmount minMakerAmountOut : Nat) : Result Error (Order × Bytes × FillTerms) := do
  let (ord, hash) ← validate natives s.registry s.domain s.now makerBmId makerBm orderBytes signature publicKey side
    s.sender s.sender
  let terms ← fillTerms s.registry ord hash takerFillAmount s.sender
  let net ← sub terms.fillM terms.takerFee
  check (minMakerAmountOut ≤ net) .slippage
  pure (ord, hash, terms)

def pendingFill (side : Side) (ord : Order) (hash : Bytes) (terms : FillTerms) (total : Nat) : PendingFill :=
  { digest := hash
    maker := ord.maker
    taker := s.sender
    baseAmount := if side = .base then terms.fillM else terms.fillT
    quoteAmount := if side = .base then terms.fillT else terms.fillM
    makerFeeBps := terms.makerFeeBps
    takerFeeBps := terms.takerFeeBps
    makerFee := terms.makerFee
    takerFee := terms.takerFee
    makerSoldBase := side = .base
    takerTokenFilledTotal := total
    timestampMs := s.now }

/-- Returns the taker's net purchase and the change of the taker's coin. -/
def fillWith (side : Side) (makerBmId : ID) (orderBytes signature publicKey : Bytes)
    (takerCoin takerFillAmount minMakerAmountOut : Nat) : Result Error (Nat × Nat × Market) := do
  let makerBm ← s.manager makerBmId
  let (ord, hash, terms) ← s.quoteFill natives side makerBmId makerBm orderBytes signature publicKey
    takerFillAmount minMakerAmountOut
  check (terms.fillT ≤ takerCoin) .notEnough
  check (terms.makerFee ≤ terms.fillT) .notEnough
  let reg ← s.registry.depositFee side.other terms.makerFee
  let makerBm ← makerBm.credit (reg.token side.other) (terms.fillT - terms.makerFee)
  let makerBm ← makerBm.debit (reg.token side) terms.fillM
  check (terms.takerFee ≤ terms.fillM) .notEnough
  let reg ← reg.depositFee side terms.takerFee
  let (total, reg) ← reg.recordFill hash terms.fillT ord.takerAmount.toNat ord.expiryMs.toNat
  pure (terms.fillM - terms.takerFee, takerCoin - terms.fillT,
    { s with
      registry := reg
      managers := Function.update s.managers makerBmId (some makerBm)
      events := s.events ++ [{ s.pendingFill side ord hash terms total with registry := reg.id }]
      tally := note s.tally hash
        ⟨terms.fillT, terms.fillM, (terms.fillT - terms.makerFee) + terms.makerFee⟩ })

/-- `fill_limit_order` and its `fill_impl`. -/
def fillLimitOrder := fillWith natives s .base

/-- `fill_limit_order_reverse` and its `fill_impl_reverse`. -/
def fillLimitOrderReverse := fillWith natives s .quote

/-- The legs of an opened fill: the maker's, bound to its manager, and the taker's. -/
def fillObligation (side : Side) (makerBmId registryId : ID) (terms : FillTerms) (makerDue takerDue : Nat)
    (fill : PendingFill) : FillObligation :=
  { registryId
    leg := fun which =>
      if which = side then ⟨.manager makerBmId, terms.fillM, makerDue, false, false⟩
      else ⟨.bearer, terms.fillT, takerDue, false, false⟩
    fee := fun which => if which = side then terms.takerFee else terms.makerFee
    pool := fun _ => 0
    fills := [fill] }

def beginFillImpl (side : Side) (makerBmId : ID) (orderBytes signature publicKey : Bytes)
    (takerFillAmount minMakerAmountOut : Nat) : Result Error Market := do
  let makerBm ← s.manager makerBmId
  let (ord, hash, terms) ← s.quoteFill natives side makerBmId makerBm orderBytes signature publicKey
    takerFillAmount minMakerAmountOut
  let (total, reg) ← s.registry.recordFill hash terms.fillT ord.takerAmount.toNat ord.expiryMs.toNat
  let makerDue ← sub terms.fillT terms.makerFee
  let takerDue ← sub terms.fillM terms.takerFee
  let ob := fillObligation side makerBmId reg.id terms makerDue takerDue (s.pendingFill side ord hash terms total)
  pure { s with
    registry := reg
    obligations := s.obligations ++ [ob]
    tally := note s.tally hash ⟨terms.fillT, 0, 0⟩ }

def beginFill := beginFillImpl natives s .base

def beginFillReverse := beginFillImpl natives s .quote

/-! ### Matches of two orders -/

structure Matched where
  ordA : Order
  ordB : Order
  digestA : Bytes
  digestB : Bytes
  quoteAmount : Nat
  feeABps : Nat
  feeBBps : Nat
  feeA : Nat
  feeB : Nat
  totalA : Nat
  totalB : Nat
  registry : SettlementRegistry

/-- Both validations, the terms and both fill records. Order `A` sells base, order
`B` sells quote, and each is the other's taker. -/
def recordMatch (idA : ID) (bmA : BalanceManager) (idB : ID) (bmB : BalanceManager)
    (orderABytes sigA pkA orderBBytes sigB pkB : Bytes) (fillBaseAmount : Nat) : Result Error Matched := do
  let peekA ← fromBytes orderABytes
  let peekB ← fromBytes orderBBytes
  let (ordA, digestA) ← validate natives s.registry s.domain s.now idA bmA orderABytes sigA pkA .base
    peekB.maker s.sender
  let (ordB, digestB) ← validate natives s.registry s.domain s.now idB bmB orderBBytes sigB pkB .quote
    peekA.maker s.sender
  let feeABps := min ordA.maxFeeBps.toNat (s.registry.feeBpsFor ordA.maker)
  let feeBBps := min ordB.maxFeeBps.toNat (s.registry.feeBpsFor ordB.maker)
  let (quoteAmount, feeA, feeB) ← matchTerms ordA ordB fillBaseAmount feeABps feeBBps
  let (totalA, reg) ← s.registry.recordFill digestA quoteAmount ordA.takerAmount.toNat ordA.expiryMs.toNat
  let (totalB, reg) ← reg.recordFill digestB fillBaseAmount ordB.takerAmount.toNat ordB.expiryMs.toNat
  pure { ordA, ordB, digestA, digestB, quoteAmount, feeABps, feeBBps, feeA, feeB, totalA, totalB, registry := reg }

def matchFills (m : Matched) (fillBaseAmount : Nat) : List PendingFill :=
  [{ digest := m.digestA, maker := m.ordA.maker, taker := m.ordB.maker
     baseAmount := fillBaseAmount, quoteAmount := m.quoteAmount
     makerFeeBps := m.feeABps, takerFeeBps := m.feeBBps, makerFee := m.feeA, takerFee := m.feeB
     makerSoldBase := true, takerTokenFilledTotal := m.totalA, timestampMs := s.now },
   { digest := m.digestB, maker := m.ordB.maker, taker := m.ordA.maker
     baseAmount := fillBaseAmount, quoteAmount := m.quoteAmount
     makerFeeBps := m.feeBBps, takerFeeBps := m.feeABps, makerFee := m.feeB, takerFee := m.feeA
     makerSoldBase := false, takerTokenFilledTotal := m.totalB, timestampMs := s.now }]

/-- `match_orders`: base from `A` to `B`, quote from `B` to `A`, fees into the vaults. -/
def matchOrders (idA idB : ID) (orderABytes sigA pkA orderBBytes sigB pkB : Bytes) (fillBaseAmount : Nat) :
    Result Error Market := do
  -- both managers are borrowed mutably, so they are two objects
  check (idA ≠ idB) .aliasedObject
  let bmA ← s.manager idA
  let bmB ← s.manager idB
  let m ← s.recordMatch natives idA bmA idB bmB orderABytes sigA pkA orderBBytes sigB pkB fillBaseAmount
  let bmA ← bmA.debit (m.registry.token .base) fillBaseAmount
  check (m.feeB ≤ fillBaseAmount) .notEnough
  let reg ← m.registry.depositFee .base m.feeB
  let bmB ← bmB.credit (reg.token .base) (fillBaseAmount - m.feeB)
  let bmB ← bmB.debit (reg.token .quote) m.quoteAmount
  check (m.feeA ≤ m.quoteAmount) .notEnough
  let reg ← reg.depositFee .quote m.feeA
  let bmA ← bmA.credit (reg.token .quote) (m.quoteAmount - m.feeA)
  let tally := note s.tally m.digestA ⟨m.quoteAmount, fillBaseAmount, (m.quoteAmount - m.feeA) + m.feeA⟩
  pure { s with
    registry := reg
    managers := Function.update (Function.update s.managers idA (some bmA)) idB (some bmB)
    events := s.events ++ (s.matchFills m fillBaseAmount).map fun fill => { fill with registry := reg.id }
    tally := note tally m.digestB ⟨fillBaseAmount, m.quoteAmount, (fillBaseAmount - m.feeB) + m.feeB⟩ }

def matchObligation (idA idB : ID) (m : Matched) (fillBaseAmount dueA dueB : Nat) : FillObligation :=
  { registryId := m.registry.id
    leg := fun
      | .base => ⟨.manager idA, fillBaseAmount, dueA, false, false⟩
      | .quote => ⟨.manager idB, m.quoteAmount, dueB, false, false⟩
    fee := fun
      | .base => m.feeB
      | .quote => m.feeA
    pool := fun _ => 0
    fills := s.matchFills m fillBaseAmount }

def beginMatch (idA idB : ID) (orderABytes sigA pkA orderBBytes sigB pkB : Bytes) (fillBaseAmount : Nat) :
    Result Error Market := do
  let bmA ← s.manager idA
  let bmB ← s.manager idB
  check (idA ≠ idB) .selfMatch
  let m ← s.recordMatch natives idA bmA idB bmB orderABytes sigA pkA orderBBytes sigB pkB fillBaseAmount
  let dueA ← sub m.quoteAmount m.feeA
  let dueB ← sub fillBaseAmount m.feeB
  let tally := note s.tally m.digestA ⟨m.quoteAmount, 0, 0⟩
  pure { s with
    registry := m.registry
    obligations := s.obligations ++ [s.matchObligation idA idB m fillBaseAmount dueA dueB]
    tally := note tally m.digestB ⟨fillBaseAmount, 0, 0⟩ }

end Market

end SuiOptions.Exchange
