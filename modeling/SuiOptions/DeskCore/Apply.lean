import SuiOptions.DeskCore.Ledger

/-! Events applied to the ledger: `Ledger::apply` with its views.

A handler returns the state it leaves, and whether it accepted the event.
-/

set_option autoImplicit false

namespace SuiOptions.DeskCore

structure Ledger where
  /-- What the ledger opened at. -/
  nav0 : ℚ
  settlement : ℚ
  underlying : BTreeMap String UnderlyingBalance
  options : BTreeMap OptionId OptionPosition
  perps : BTreeMap Market PerpPosition
  /-- The live ones. -/
  reservations : BTreeMap String Reservation
  queuedWithdrawals : QueuedWithdrawals
  external : ExternalAccount
  pending : Pending
  /-- Borrowed inside the transaction that is being applied. -/
  flashOutstanding : ℚ
  lines : Lines
  equityFlows : EquityFlows
  eventsApplied : Nat
  lastEventMs : Nat

abbrev Outcome := Ledger × Except LedgerError Unit

def accept (l : Ledger) : Outcome := (l, .ok ())

def refuse (l : Ledger) (why : LedgerError) : Outcome := (l, .error why)

namespace Ledger

def new (nav0 : ℚ) : Ledger where
  nav0 := nav0
  settlement := nav0
  underlying := ∅
  options := ∅
  perps := ∅
  reservations := ∅
  queuedWithdrawals := {}
  external := {}
  pending := {}
  flashOutstanding := 0
  lines := {}
  equityFlows := {}
  eventsApplied := 0
  lastEventMs := 0

/-! ### Views -/

def optionMarks (l : Ledger) : ℚ := l.options.total OptionPosition.value

def underlyingValue (l : Ledger) : ℚ := l.underlying.total UnderlyingBalance.value

def perpCollateral (l : Ledger) : ℚ := l.perps.total (·.collateral)

def perpUnrealized (l : Ledger) : ℚ := l.perps.total PerpPosition.unrealized

def withdrawalLiability (l : Ledger) : ℚ := l.queuedWithdrawals.value.getD 0

def assets (l : Ledger) : ℚ :=
  l.settlement + l.underlyingValue + l.optionMarks + l.perpCollateral + l.pending.marginInTransit + l.perpUnrealized

def liabilities (l : Ledger) : ℚ := l.withdrawalLiability + l.flashOutstanding

def nav (l : Ledger) : ℚ := l.assets - l.liabilities

def navExplained (l : Ledger) : ℚ :=
  l.nav0 + l.lines.realized + l.lines.optionMark + l.perpUnrealized + l.equityFlows.total

def reservedTotal (l : Ledger) : ℚ := l.reservations.total fun r => (r.amount : ℚ)

def availableCapital (l : Ledger) : ℚ := l.settlement - l.reservedTotal - l.pending.committedSpend

/-! ### Observations -/

def syncUnderlying (l : Ledger) (row : String × ℚ × ℚ) : Ledger :=
  let b := (l.underlying.get? row.1).getD {}
  let synced : UnderlyingBalance := ⟨row.2.1, row.2.2⟩
  { l with
    underlying := l.underlying.insert row.1 synced
    equityFlows := { l.equityFlows with
      resyncUnderlying := l.equityFlows.resyncUnderlying + (synced.value - b.value) } }

def syncSettlement (l : Ledger) (settlement : Option ℚ) : Ledger :=
  match settlement with
  | none => l
  | some s =>
    { l with
      settlement := s
      equityFlows := { l.equityFlows with resyncSettlement := l.equityFlows.resyncSettlement + (s - l.settlement) } }

def resyncBalances (l : Ledger) (settlement : Option ℚ) (underlying : List (String × ℚ × ℚ)) : Ledger :=
  underlying.foldl syncUnderlying (l.syncSettlement settlement)

def markLine (l : Ledger) (id : OptionId) (p : OptionPosition) (mark : ℚ) : Ledger :=
  { l with
    options := l.options.insert id { p with markPerUnit := mark }
    lines := { l.lines with optionMark := l.lines.optionMark + (mark - p.markPerUnit) * p.qty } }

def holdLine (l : Ledger) (id : OptionId) (p : OptionPosition) (spec : OptionSpec) (qty : ℚ) : Ledger :=
  let held : OptionPosition :=
    { p with
      spec
      costBasis := if 0 < p.qty then p.costBasis * (qty / p.qty) else 0
      qty
      pendingUnits := 0 }
  { l with
    options := l.options.insert id held
    equityFlows := { l.equityFlows with resyncOptions := l.equityFlows.resyncOptions + (held.value - p.value) } }

def syncOption (l : Ledger) (s : OptionSync) : Ledger :=
  let p := (l.options.get? s.option).getD ⟨s.spec, 0, 0, s.markPerUnit.getD 0, 0⟩
  match s.markPerUnit with
  | none => l.holdLine s.option p s.spec s.qty
  | some mark => (l.markLine s.option p mark).holdLine s.option { p with markPerUnit := mark } s.spec s.qty

def loseOption (l : Ledger) (id : OptionId) : Ledger :=
  match l.options.get? id with
  | none => l
  | some p =>
    { l with
      options := l.options.remove id
      equityFlows := { l.equityFlows with resyncOptions := l.equityFlows.resyncOptions - p.value } }

def resyncOptions (l : Ledger) (positions : List OptionSync) : Ledger :=
  let seen := positions.map (·.option)
  let synced := positions.foldl syncOption l
  let gone := (synced.options.toList.map Prod.fst).filter fun id => id ∉ seen
  let kept := gone.foldl loseOption synced
  { kept with pending := { kept.pending with exercises := ∅, resales := ∅ } }

def bookFill (l : Ledger) (market : Market) (filled : PerpPosition × ℚ) : Ledger :=
  { l with
    perps := l.perps.insert market filled.1
    settlement := l.settlement + filled.2
    lines := { l.lines with hedgeRealized := l.lines.hedgeRealized + filled.2 } }

def resyncPerp (l : Ledger) (market : Market) (units : ℚ) (mark : Option ℚ) : Ledger :=
  let found := (l.perps.get? market).getD {}
  let p := { found with mark := mark.getD found.mark }
  if p.units = units then { l with perps := l.perps.insert market p }
  else
    let px := if 0 < p.mark then p.mark else p.entry
    l.bookFill market (p.fill (units - p.units) px)

def queueWithdrawals (l : Ledger) (queue : QueuedWithdrawals) : Ledger :=
  let queued := { queue with value := queue.value.or l.queuedWithdrawals.value }
  { l with
    queuedWithdrawals := queued
    equityFlows := { l.equityFlows with
      withdrawalQueue := l.equityFlows.withdrawalQueue - (queued.value.getD 0 - l.withdrawalLiability) } }

/-! ### Marks -/

def markOption (l : Ledger) (row : OptionId × ℚ) : Ledger :=
  match l.options.get? row.1 with
  | none => l
  | some p => l.markLine row.1 p row.2

def markUnderlying (l : Ledger) (asset : String) (mark : ℚ) : Ledger :=
  match l.underlying.get? asset with
  | none => l
  | some b =>
    { l with
      underlying := l.underlying.insert asset { b with mark }
      lines := { l.lines with optionMark := l.lines.optionMark + (mark - b.mark) * b.units } }

def markPerp (l : Ledger) (market : Market) (mark : ℚ) : Ledger :=
  { l with perps := l.perps.entry market {} fun p => { p with mark } }

/-- The units of pending operations stay as a worthless shell. -/
def expireLine (l : Ledger) (id : OptionId) : Ledger :=
  match l.options.get? id with
  | none => l
  | some p =>
    let shell := { p with markPerUnit := 0, costBasis := 0, qty := p.pendingUnits }
    { l with
      options := if shell.qty ≤ 0 then l.options.remove id else l.options.insert id shell
      lines := { l.lines with
        optionMark := l.lines.optionMark - p.value
        expiredWorthless := l.lines.expiredWorthless + if 0 < p.freeUnits then 1 else 0 } }

def expireOptions (l : Ledger) (atMs : Nat) : Ledger :=
  let expired := (l.options.toList.filter fun line => line.2.spec.expiryMs ≤ atMs).map Prod.fst
  expired.foldl expireLine l

/-! ### Reservations -/

def installReservation (l : Ledger) (r : Reservation) : Ledger :=
  if r.state.isLive then
    { l with
      reservations := l.reservations.insert r.key r
      pending := { l.pending with quotes := if r.state = .quoted then insert r.key l.pending.quotes else l.pending.quotes } }
  else l

def reserve (l : Ledger) (r : Reservation) : Outcome :=
  if l.reservations.get? r.key ≠ none then refuse l (.duplicateReservation r.key)
  else if l.availableCapital < (r.amount : ℚ) then refuse l (.exceedsAvailableCapital (r.amount : ℚ) l.availableCapital)
  else accept (l.installReservation r)

def transitionReservation (l : Ledger) (key : String) (state : ReservationState) (atMs : Nat) : Ledger :=
  match l.reservations.get? key with
  | none => l
  | some r =>
    let removed := l.reservations.remove key
    { l with
      reservations := if state.isLive then removed.insert key { r with state, stateAtMs := atMs } else removed
      pending := { l.pending with quotes := l.pending.quotes.erase key } }

/-! ### Options -/

/-- The line of an option whose economics are not known yet. -/
def unknownSpec : OptionSpec := ⟨.call, 0, 2 ^ 64 - 1⟩

def buyOption (l : Ledger) (id : OptionId) (spec : Option OptionSpec) (qty premium markPerUnit : ℚ) : Ledger :=
  let found := (l.options.get? id).getD ⟨spec.getD unknownSpec, 0, 0, markPerUnit, 0⟩
  let p := { found with spec := spec.getD found.spec }
  { l with
    options := l.options.insert id
      { p with markPerUnit, qty := p.qty + qty, costBasis := p.costBasis + premium }
    settlement := l.settlement - premium
    lines := { l.lines with
      optionMark := l.lines.optionMark + (markPerUnit - p.markPerUnit) * p.qty
      premiumPaid := l.lines.premiumPaid + premium
      spread := l.lines.spread + (markPerUnit * qty - premium)
      fills := l.lines.fills + 1 } }

def dropIfEmpty (l : Ledger) (id : OptionId) : Ledger :=
  match l.options.get? id with
  | none => l
  | some p => if p.qty ≤ 0 ∧ p.pendingUnits ≤ 0 then { l with options := l.options.remove id } else l

def commit (l : Ledger) (id : OptionId) (p : OptionPosition) (qty : ℚ) : Ledger :=
  { l with options := l.options.insert id { p with pendingUnits := p.pendingUnits + qty } }

def submitResale (l : Ledger) (op : OpId) (resale : PendingResale) : Outcome :=
  match l.options.get? resale.option with
  | none => refuse l (.unknownOption resale.option)
  | some p =>
    if p.freeUnits < resale.qty then refuse l (.insufficientUnits resale.option resale.qty p.freeUnits)
    else
      let l := l.commit resale.option p resale.qty
      accept { l with pending := { l.pending with resales := l.pending.resales.insert op resale } }

/-- The units sold, their basis and their mark given up. -/
def sellUnits (l : Ledger) (r : PendingResale) (p : OptionPosition) (proceeds : ℚ) : Ledger :=
  { l with
    options := l.options.insert r.option
      { p with
        costBasis := p.costBasis - if 0 < p.qty then p.costBasis * r.qty / p.qty else 0
        qty := p.qty - r.qty }
    settlement := l.settlement + proceeds
    lines := { l.lines with
      optionExit := l.lines.optionExit + (proceeds - p.markPerUnit * r.qty)
      optionPayoff := l.lines.optionPayoff + proceeds
      resales := l.lines.resales + 1 } }

def settleResale (l : Ledger) (op : OpId) (proceeds : Option ℚ) : Outcome :=
  match l.pending.resales.get? op with
  | none => refuse l (.unknownOp op)
  | some r =>
    let l := { l with pending := { l.pending with resales := l.pending.resales.remove op } }
    match l.options.get? r.option with
    | none => refuse l (.unknownOption r.option)
    | some p =>
      let p := { p with pendingUnits := p.pendingUnits - r.qty }
      match proceeds with
      | none => accept { l with options := l.options.insert r.option p }
      | some proceeds => accept ((l.sellUnits r p proceeds).dropIfEmpty r.option)

def submitExercise (l : Ledger) (op : OpId) (exercise : PendingExercise) : Outcome :=
  let plan := exercise.plan
  match l.options.get? plan.option with
  | none => refuse l (.unknownOption plan.option)
  | some p =>
    if p.freeUnits < plan.qty then refuse l (.insufficientUnits plan.option plan.qty p.freeUnits)
    else
      let l := l.commit plan.option p plan.qty
      accept { l with pending := { l.pending with exercises := l.pending.exercises.insert op exercise } }

def release (l : Ledger) (op : OpId) (plan : ExercisePlan) : Ledger :=
  { l with
    pending := { l.pending with exercises := l.pending.exercises.remove op }
    options := l.options.modify plan.option fun p => { p with pendingUnits := max (p.pendingUnits - plan.qty) 0 } }

def failExercise (l : Ledger) (id : OptionId) : Ledger :=
  dropIfEmpty { l with lines := { l.lines with exerciseFailures := l.lines.exerciseFailures + 1 } } id

def moveUnderlying (l : Ledger) (plan : ExercisePlan) : BTreeMap String UnderlyingBalance × ℚ :=
  if plan.underlyingIn ≠ 0 ∨ plan.underlyingOut ≠ 0 then
    let b := (l.underlying.get? plan.asset).getD {}
    let moved := { b with units := b.units + (plan.underlyingIn - plan.underlyingOut) }
    (l.underlying.insert plan.asset moved, moved.value - b.value)
  else (l.underlying, 0)

/-- The trial copy before the flash loan is checked: borrow, move, repay. -/
def trial (l : Ledger) (plan : ExercisePlan) (p : OptionPosition) : Ledger :=
  { l with
    options := l.options.insert plan.option
      { p with
        costBasis := p.costBasis - if 0 < p.qty then p.costBasis * plan.qty / p.qty else 0
        qty := p.qty - plan.qty }
    lines := { l.lines with optionExit := l.lines.optionExit - p.markPerUnit * plan.qty }
    settlement := l.settlement + (plan.settlementIn - plan.settlementOut - plan.gas)
    underlying := (l.moveUnderlying plan).1
    flashOutstanding := l.flashOutstanding + plan.flashBorrowed - plan.flashRepaid }

/-- The trial copy once the flash loan is repaid. -/
def bookExercise (trial : Ledger) (plan : ExercisePlan) (delta : ℚ) : Ledger :=
  { trial with
    flashOutstanding := 0
    lines := { trial.lines with
      optionExit := trial.lines.optionExit + (plan.settlementIn - plan.settlementOut + delta)
      optionPayoff := trial.lines.optionPayoff + (plan.settlementIn - plan.settlementOut + delta)
      exerciseCosts := trial.lines.exerciseCosts + plan.settlementOut
      gas := trial.lines.gas + plan.gas
      exerciseTurnoverNotional := trial.lines.exerciseTurnoverNotional + plan.routeNotional
      exercises := trial.lines.exercises + 1 } }

def settleExercise (l : Ledger) (op : OpId) (ok : Bool) (actual : Option ExercisePlan) : Outcome :=
  match l.pending.exercises.get? op with
  | none => refuse l (.unknownOp op)
  | some x =>
    let plan := actual.getD x.plan
    let released := l.release op x.plan
    if ok = false then accept (released.failExercise x.plan.option)
    else
      match released.options.get? plan.option with
      | none => refuse released (.unknownOption plan.option)
      | some p =>
        if p.qty < plan.qty then refuse released (.insufficientUnits plan.option plan.qty p.qty)
        else
          let trial := released.trial plan p
          if trial.flashOutstanding ≠ 0 then
            refuse (released.failExercise x.plan.option) (.flashNotRepaid plan.flashBorrowed plan.flashRepaid)
          else accept ((trial.bookExercise plan (released.moveUnderlying plan).2).dropIfEmpty plan.option)

/-! ### Perps -/

def submitHedge (l : Ledger) (op : OpId) (hedge : PendingHedge) : Ledger :=
  { l with pending := { l.pending with hedges := l.pending.hedges.insert op hedge } }

def fillPerp (l : Ledger) (op : Option OpId) (market : Market) (sizeUnits price fee reference gas : ℚ)
    (isPassive isPartial : Bool) : Ledger :=
  let (p, realized) := ((l.perps.get? market).getD {}).fill sizeUnits price
  let reference := if 0 < reference then reference else price
  { l with
    perps := l.perps.insert market { p with mark := reference, fees := p.fees + fee }
    settlement := l.settlement + (realized - fee - gas)
    lines := { l.lines with
      hedgeRealized := l.lines.hedgeRealized + realized
      makerFees := l.lines.makerFees + if isPassive then fee else 0
      passiveFills := l.lines.passiveFills + if isPassive then 1 else 0
      hedgeFees := l.lines.hedgeFees + if isPassive then 0 else fee
      takerFills := l.lines.takerFills + if isPassive then 0 else 1
      partialFills := l.lines.partialFills + if isPartial then 1 else 0
      gas := l.lines.gas + gas
      hedgeSlippage := l.lines.hedgeSlippage + |sizeUnits| * (price - reference) * signum sizeUnits
      hedgeTurnoverNotional := l.lines.hedgeTurnoverNotional + |sizeUnits| * reference
      hedgeFills := l.lines.hedgeFills + 1 }
    pending := { l.pending with
      hedges := match op with
        | some op => if isPartial then l.pending.hedges else l.pending.hedges.remove op
        | none => l.pending.hedges } }

def resolveHedge (l : Ledger) (op : OpId) (rejected : Bool) : Ledger :=
  if l.pending.hedges.get? op = none then l
  else
    { l with
      pending := { l.pending with hedges := l.pending.hedges.remove op }
      lines := { l.lines with
        hedgeRejects := l.lines.hedgeRejects + if rejected then 1 else 0
        cancels := l.lines.cancels + if rejected then 0 else 1 } }

def payFunding (l : Ledger) (market : Market) (paid : ℚ) : Ledger :=
  { l with
    perps := l.perps.entry market {} fun p => { p with fundingPaid := p.fundingPaid + paid }
    settlement := l.settlement - paid
    lines := { l.lines with fundingPaid := l.lines.fundingPaid + paid } }

def moveMargin (l : Ledger) (market : Market) (amount : ℚ) : Ledger :=
  { l with
    perps := l.perps.entry market {} fun p => { p with collateral := p.collateral + amount }
    settlement := l.settlement - amount }

def sendTopUp (l : Ledger) (op : OpId) (margin : PendingMargin) : Ledger :=
  { l with
    settlement := l.settlement - margin.amount
    pending := { l.pending with margin := l.pending.margin.insert op margin } }

def landTopUp (l : Ledger) (op : OpId) (accepted : Bool) : Outcome :=
  match l.pending.margin.get? op with
  | none => refuse l (.unknownOp op)
  | some m =>
    let l := { l with pending := { l.pending with margin := l.pending.margin.remove op } }
    if accepted then
      accept { l with
        perps := l.perps.entry m.market {} fun p => { p with collateral := p.collateral + m.amount }
        lines := { l.lines with
          marginTopups := l.lines.marginTopups + 1
          topupTotal := l.lines.topupTotal + m.amount } }
    else
      accept { l with
        settlement := l.settlement + m.amount
        lines := { l.lines with topupRejects := l.lines.topupRejects + 1 } }

def liquidate (l : Ledger) (market : Market) (sizeClosed price penalty : ℚ) (full : Bool) : Ledger :=
  let (filled, realized) := ((l.perps.get? market).getD {}).fill sizeClosed price
  let p := { filled with mark := price, collateral := filled.collateral - penalty }
  { l with
    perps := l.perps.insert market (if full then { p with collateral := 0 } else p)
    settlement := l.settlement + realized + if full then p.collateral else 0
    lines := { l.lines with
      hedgeRealized := l.lines.hedgeRealized + realized
      hedgeTurnoverNotional := l.lines.hedgeTurnoverNotional + |sizeClosed| * price
      liquidationLoss := l.lines.liquidationLoss + penalty
      liquidations := l.lines.liquidations + 1 }
    pending := { l.pending with hedges := l.pending.hedges.retain fun _ hedge => hedge.market ≠ market } }

/-! ### All events -/

def applyInner (l : Ledger) : LedgerEvent → Outcome
  | .resyncBalances settlement underlying _ => accept (l.resyncBalances settlement underlying)
  | .resyncOptions positions _ => accept (l.resyncOptions positions)
  | .resyncPerp market units mark _ => accept (l.resyncPerp market units mark)
  | .queuedWithdrawals queue => accept (l.queueWithdrawals queue)
  | .external account => accept { l with external := account }
  | .markOptions marks _ => accept (marks.foldl markOption l)
  | .markUnderlying asset mark _ => accept (l.markUnderlying asset mark)
  | .markPerp market mark _ => accept (l.markPerp market mark)
  | .expireOptions atMs => accept (l.expireOptions atMs)
  | .reserve reservation => l.reserve reservation
  | .reservationTransition key state atMs => accept (l.transitionReservation key state atMs)
  | .restoreReservation reservation => accept (l.installReservation reservation)
  | .optionBought option spec qty premium markPerUnit _ => accept (l.buyOption option spec qty premium markPerUnit)
  | .resaleSubmitted op option qty expectedProceeds atMs => l.submitResale op ⟨option, qty, expectedProceeds, atMs⟩
  | .resaleSettled op proceeds _ => l.settleResale op proceeds
  | .exerciseSubmitted op plan atMs => l.submitExercise op ⟨plan, atMs⟩
  | .exerciseSettled op ok actual _ => l.settleExercise op ok actual
  | .hedgeSubmitted op market sizeUnits spot atMs => accept (l.submitHedge op ⟨market, sizeUnits, spot, atMs⟩)
  | .perpFill op market sizeUnits price fee reference gas isPassive isPartial _ =>
    accept (l.fillPerp op market sizeUnits price fee reference gas isPassive isPartial)
  | .hedgeResolved op rejected _ => accept (l.resolveHedge op rejected)
  | .funding market paid _ => accept (l.payFunding market paid)
  | .marginMoved market amount _ => accept (l.moveMargin market amount)
  | .marginTopUpSent op market amount atMs => accept (l.sendTopUp op ⟨market, amount, atMs⟩)
  | .marginTopUpLanded op accepted _ => l.landTopUp op accepted
  | .liquidation market sizeClosed price penalty full _ => accept (l.liquidate market sizeClosed price penalty full)
  | .gas amount _ =>
    accept { l with settlement := l.settlement - amount, lines := { l.lines with gas := l.lines.gas + amount } }
  | .penalty amount _ =>
    accept { l with settlement := l.settlement - amount, lines := { l.lines with penalties := l.lines.penalties + amount } }

def apply (l : Ledger) (event : LedgerEvent) : Outcome :=
  match l.applyInner event with
  | (after, .error why) => refuse after why
  | (after, .ok ()) =>
    accept { after with
      eventsApplied := after.eventsApplied + 1
      lastEventMs := max after.lastEventMs event.atMs }

def advance (l : Ledger) (event : LedgerEvent) : Except Empty Ledger := .ok (l.apply event).1

end Ledger

end SuiOptions.DeskCore
