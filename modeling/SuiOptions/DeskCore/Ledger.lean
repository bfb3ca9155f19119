import SuiOptions.Lib.Totals

/-! The desk's ledger: `ledger.rs`.

Every amount is an exact rational, and every tolerance is zero: `near` is equality, and
what is compared with `1e-12` is compared with zero. An event is accepted or refused, and
a refused one leaves the state as far as the code had changed it.
-/

set_option autoImplicit false

namespace SuiOptions.DeskCore

/-! ### Positions -/

abbrev OptionId := String

abbrev Market := String

abbrev OpId := Nat

inductive OptionKind where
  | call
  | put
  deriving DecidableEq, Repr

structure OptionSpec where
  kind : OptionKind
  strike : ℚ
  expiryMs : Nat
  deriving DecidableEq

structure OptionPosition where
  spec : OptionSpec
  qty : ℚ
  costBasis : ℚ
  markPerUnit : ℚ
  /-- Units inside a pending exercise or resale. -/
  pendingUnits : ℚ
  deriving DecidableEq

namespace OptionPosition

def value (p : OptionPosition) : ℚ := p.qty * p.markPerUnit

def freeUnits (p : OptionPosition) : ℚ := p.qty - p.pendingUnits

end OptionPosition

structure PerpPosition where
  units : ℚ := 0
  entry : ℚ := 0
  collateral : ℚ := 0
  mark : ℚ := 0
  realized : ℚ := 0
  fundingPaid : ℚ := 0
  fees : ℚ := 0
  /-- What the open and the closed units cost. -/
  cashFlow : ℚ := 0
  deriving DecidableEq

/-- `f64::signum`, which is one at zero -/
def signum (x : ℚ) : ℚ := if x < 0 then -1 else 1

namespace PerpPosition

def unrealized (p : PerpPosition) : ℚ := p.units * (p.mark - p.entry)

def fill (p : PerpPosition) (units px : ℚ) : PerpPosition × ℚ :=
  if units = 0 then (p, 0)
  else
    let paid := { p with cashFlow := p.cashFlow - units * px }
    let pos := p.units
    let new := pos + units
    if pos = 0 ∨ signum pos = signum units then
      ({ paid with
          entry := (p.entry * |pos| + px * |units|) / |new|
          units := new }, 0)
    else
      let close := min |units| |pos|
      let realized := (px - p.entry) * close * signum pos
      let moved :=
        if new = 0 then { paid with units := 0, entry := 0 }
        -- a reversal opens the remainder at the price of the fill
        else if signum new ≠ signum pos then { paid with units := new, entry := px }
        else { paid with units := new }
      ({ moved with realized := moved.realized + realized }, realized)

end PerpPosition

structure UnderlyingBalance where
  units : ℚ := 0
  mark : ℚ := 0
  deriving DecidableEq

def UnderlyingBalance.value (b : UnderlyingBalance) : ℚ := b.units * b.mark

structure QueuedWithdrawals where
  shares : ℚ := 0
  /-- `none` when the queue could not be valued. -/
  value : Option ℚ := none
  observedAtMs : Nat := 0
  deriving DecidableEq

structure ExternalAccount where
  exposure : ℚ := 0
  attestedEquity : Option ℚ := none
  attestedAtMs : Option Nat := none
  totalBudget : ℚ := 0
  dailyReleaseLimit : ℚ := 0
  dailyReleaseUsed : ℚ := 0
  windowStartMs : Nat := 0
  observedAtMs : Nat := 0
  deriving DecidableEq

/-! ### Reservations -/

inductive ReservationState where
  | quoted
  | accepted
  | reverted
  | expired
  | filled
  deriving DecidableEq, Repr

def ReservationState.isLive : ReservationState → Bool
  | .quoted | .accepted => true
  | _ => false

structure Reservation where
  key : String
  nonce : Option Nat
  amount : Nat
  isPut : Bool
  expiryMs : Nat
  exerciseCash : ℚ
  hedgeNotional : ℚ
  quotedAtMs : Nat
  expiresMs : Nat
  state : ReservationState
  stateAtMs : Nat
  deriving DecidableEq

/-! ### Pending operations -/

inductive ExercisePath where
  | callCash
  | callFlash
  | putVaultUnderlying
  | putBaseFlash
  | putQuoteFlash
  deriving DecidableEq, Repr

structure ExercisePlan where
  option : OptionId
  path : ExercisePath
  qty : ℚ
  asset : String
  settlementOut : ℚ
  settlementIn : ℚ
  underlyingIn : ℚ
  underlyingOut : ℚ
  flashBorrowed : ℚ
  flashRepaid : ℚ
  routeNotional : ℚ
  gas : ℚ
  deriving DecidableEq

structure PendingHedge where
  market : Market
  sizeUnits : ℚ
  spot : ℚ
  submittedMs : Nat
  deriving DecidableEq

structure PendingMargin where
  market : Market
  /-- Debited from settlement, credited to the venue when it lands. -/
  amount : ℚ
  sentMs : Nat
  deriving DecidableEq

structure PendingResale where
  option : OptionId
  qty : ℚ
  expectedProceeds : ℚ
  submittedMs : Nat
  deriving DecidableEq

structure PendingExercise where
  plan : ExercisePlan
  submittedMs : Nat
  deriving DecidableEq

structure Pending where
  quotes : Finset String := ∅
  hedges : BTreeMap OpId PendingHedge := ∅
  margin : BTreeMap OpId PendingMargin := ∅
  resales : BTreeMap OpId PendingResale := ∅
  exercises : BTreeMap OpId PendingExercise := ∅

namespace Pending

def marginInTransit (pending : Pending) : ℚ := pending.margin.total (·.amount)

def committedSpend (pending : Pending) : ℚ := pending.exercises.total fun x => x.plan.settlementOut + x.plan.gas

end Pending

/-! ### Lines -/

structure Lines where
  premiumPaid : ℚ := 0
  spread : ℚ := 0
  optionMark : ℚ := 0
  optionExit : ℚ := 0
  optionPayoff : ℚ := 0
  exerciseCosts : ℚ := 0
  hedgeRealized : ℚ := 0
  fundingPaid : ℚ := 0
  hedgeFees : ℚ := 0
  makerFees : ℚ := 0
  hedgeSlippage : ℚ := 0
  gas : ℚ := 0
  liquidationLoss : ℚ := 0
  penalties : ℚ := 0
  hedgeTurnoverNotional : ℚ := 0
  exerciseTurnoverNotional : ℚ := 0
  topupTotal : ℚ := 0
  fills : Nat := 0
  hedgeFills : Nat := 0
  takerFills : Nat := 0
  passiveFills : Nat := 0
  partialFills : Nat := 0
  cancels : Nat := 0
  hedgeRejects : Nat := 0
  liquidations : Nat := 0
  marginTopups : Nat := 0
  topupRejects : Nat := 0
  exercises : Nat := 0
  exerciseFailures : Nat := 0
  resales : Nat := 0
  expiredWorthless : Nat := 0
  deriving DecidableEq

def Lines.realized (lines : Lines) : ℚ :=
  lines.spread + lines.optionExit + lines.hedgeRealized - lines.fundingPaid - lines.hedgeFees - lines.makerFees - lines.gas -
    lines.liquidationLoss - lines.penalties

structure EquityFlows where
  resyncSettlement : ℚ := 0
  resyncUnderlying : ℚ := 0
  resyncOptions : ℚ := 0
  resyncPerp : ℚ := 0
  withdrawalQueue : ℚ := 0
  deriving DecidableEq

def EquityFlows.total (flows : EquityFlows) : ℚ :=
  flows.resyncSettlement + flows.resyncUnderlying + flows.resyncOptions + flows.resyncPerp + flows.withdrawalQueue

/-! ### Events -/

structure OptionSync where
  option : OptionId
  spec : OptionSpec
  qty : ℚ
  markPerUnit : Option ℚ
  deriving DecidableEq

inductive LedgerEvent where
  | resyncBalances (settlement : Option ℚ) (underlying : List (String × ℚ × ℚ)) (atMs : Nat)
  | resyncOptions (positions : List OptionSync) (atMs : Nat)
  | resyncPerp (market : Market) (units : ℚ) (mark : Option ℚ) (atMs : Nat)
  | queuedWithdrawals (queue : QueuedWithdrawals)
  | external (account : ExternalAccount)
  | markOptions (marks : List (OptionId × ℚ)) (atMs : Nat)
  | markUnderlying (asset : String) (mark : ℚ) (atMs : Nat)
  | markPerp (market : Market) (mark : ℚ) (atMs : Nat)
  | expireOptions (atMs : Nat)
  | reserve (reservation : Reservation)
  | reservationTransition (key : String) (state : ReservationState) (atMs : Nat)
  | restoreReservation (reservation : Reservation)
  | optionBought (option : OptionId) (spec : Option OptionSpec) (qty premium markPerUnit : ℚ) (atMs : Nat)
  | resaleSubmitted (op : OpId) (option : OptionId) (qty expectedProceeds : ℚ) (atMs : Nat)
  | resaleSettled (op : OpId) (proceeds : Option ℚ) (atMs : Nat)
  | exerciseSubmitted (op : OpId) (plan : ExercisePlan) (atMs : Nat)
  | exerciseSettled (op : OpId) (ok : Bool) (actual : Option ExercisePlan) (atMs : Nat)
  | hedgeSubmitted (op : OpId) (market : Market) (sizeUnits spot : ℚ) (atMs : Nat)
  | perpFill (op : Option OpId) (market : Market) (sizeUnits price fee reference gas : ℚ) (isPassive isPartial : Bool)
      (atMs : Nat)
  | hedgeResolved (op : OpId) (rejected : Bool) (atMs : Nat)
  | funding (market : Market) (paid : ℚ) (atMs : Nat)
  | marginMoved (market : Market) (amount : ℚ) (atMs : Nat)
  | marginTopUpSent (op : OpId) (market : Market) (amount : ℚ) (atMs : Nat)
  | marginTopUpLanded (op : OpId) (accepted : Bool) (atMs : Nat)
  | liquidation (market : Market) (sizeClosed price penalty : ℚ) (full : Bool) (atMs : Nat)
  | gas (amount : ℚ) (atMs : Nat)
  | penalty (amount : ℚ) (atMs : Nat)

def LedgerEvent.atMs : LedgerEvent → Nat
  | resyncBalances _ _ time | resyncOptions _ time | resyncPerp _ _ _ time | markOptions _ time | markUnderlying _ _ time
  | markPerp _ _ time | expireOptions time | reservationTransition _ _ time | optionBought _ _ _ _ _ time
  | resaleSubmitted _ _ _ _ time | resaleSettled _ _ time | exerciseSubmitted _ _ time | exerciseSettled _ _ _ time
  | hedgeSubmitted _ _ _ _ time | perpFill _ _ _ _ _ _ _ _ _ time | hedgeResolved _ _ time | funding _ _ time
  | marginMoved _ _ time | marginTopUpSent _ _ _ time | marginTopUpLanded _ _ time | liquidation _ _ _ _ _ time | gas _ time
  | penalty _ time => time
  | queuedWithdrawals queue => queue.observedAtMs
  | external account => account.observedAtMs
  | reserve reservation | restoreReservation reservation => reservation.stateAtMs

inductive LedgerError where
  | duplicateReservation (key : String)
  | exceedsAvailableCapital (requested available : ℚ)
  | unknownOption (option : OptionId)
  | unknownOp (op : OpId)
  | insufficientUnits (option : OptionId) (requested free : ℚ)
  | flashNotRepaid (borrowed repaid : ℚ)
  deriving DecidableEq

end SuiOptions.DeskCore
