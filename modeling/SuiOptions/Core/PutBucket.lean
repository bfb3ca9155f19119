import SuiOptions.Core.Bucket

/-! The cash-secured-put bucket: `put_bucket.move`, function by function, and the
system of put buckets, positions and option coins it acts on. -/

set_option autoImplicit false

namespace SuiOptions.Core

open Execution Move Ranges

def Queue.nextSpreadStart (q : Queue) (cur : Nat) : Nat :=
  match q.spreads.find? (fun s => cur < s.stop) with
  | some s => s.start
  | none => q.totalWritten

def assignedEnd (cursor : Nat) (r : Range) : Nat :=
  if cursor ≤ r.start then r.start
  else if r.stop ≤ cursor then r.stop
  else cursor

/-- `if (remaining > 0) { insert_closed(..) }` -/
def Queue.closeRemaining (q : Queue) (cut stop remaining : Nat) : Result Error Queue :=
  if 0 < remaining then q.insertClosed cut stop else .ok q

/-- The escrow cash needed once `a` units are assigned. -/
def spreadCashNeed (a strike scale longStrike longScale : Nat) : Result Error Nat := do
  let need ← applyStrikeCeil a strike scale
  let have' ← applyStrikeFloor a longStrike longScale
  pure (if have' < need then need - have' else 0)

namespace PutBucket

variable {ι : Type}

def requiredCollateral (b : PutBucket ι) (amount : Nat) : Result Error Nat :=
  applyStrikeCeil amount b.strike b.strikeScale

def doWrite (b : PutBucket ι) (collateral amount : Nat) : Result Error (Range × PutBucket ι) := do
  let base := { b.toBucket with settlementBalance := b.settlementBalance + collateral }
  let (range, base) ← base.extend amount
  let base ← base.mint amount
  pure (range, { b with toBucket := base })

/-- The checks every write venue makes before `doWrite`. The ingress gate of the
venues stands before this one in `GatedPuts`; a quote only refuses more calls. -/
def writeAndCheck (now : Nat) (b : PutBucket ι) (collateral amount : Nat) :
    Result Error (Range × PutBucket ι) := do
  check (now < b.expiryMs) .bucketExpired
  check (b.invalidated = false) .bucketInvalidated
  let required ← b.requiredCollateral amount
  check (collateral = required) .putCollateralMismatch
  b.doWrite collateral amount

def exercise (now : Nat) (b : PutBucket ι) (amount delivery : Nat) : Result Error (Nat × PutBucket ι) := do
  check (now < b.expiryMs) .bucketExpired
  check (0 < amount) .zeroAmount
  check (delivery = amount) .amountMismatch
  let used ← addU128 b.exerciseCursor amount
  let used ← addU128 used b.closedPending
  check (used ≤ b.totalWritten) .cursorOverflow
  let base ← b.toBucket.burn amount
  let base := { base with underlyingBalance := base.underlyingBalance + delivery }
  let q ← base.toQueue.advanceCursor base.toQueue.nextSpreadStart .putSpreadExerciseRequired amount
  let payout ← applyStrikeFloor amount b.strike b.strikeScale
  let base ← (base.withQueue q).splitSettlement payout
  pure (payout, { b with toBucket := base })

def redeemPosition [DecidableEq ι] (now : Nat) (id : ι) (b : PutBucket ι) (p : Position ι) :
    Result Error (PutBucket ι) := do
  check (b.expiryMs ≤ now) .bucketNotExpired
  check (p.bucketId = id) .positionBucketMismatch
  check (b.overlapsSpread p.range.start p.range.stop = false) .spreadPosition
  let exercised := exercisedUnits b.exerciseCursor p.range
  let totalRange ← sub p.range.stop p.range.start
  let unexercised ← sub totalRange exercised
  let redeemed ← addU128 b.totalRedeemed totalRange
  let underlyingAmount ← castU64 exercised
  let settlementAmount ← applyStrikeFloor unexercised b.strike b.strikeScale
  let base ← b.toBucket.splitUnderlying underlyingAmount
  let base ← base.splitSettlement settlementAmount
  pure { b with toBucket := base, totalRedeemed := redeemed }

def closeOffset [DecidableEq ι] (now : Nat) (id : ι) (b : PutBucket ι) (p : Position ι) (amount : Nat) :
    Result Error (Position ι × PutBucket ι) := do
  check (now < b.expiryMs) .bucketExpired
  check (0 < amount) .zeroAmount
  check (p.bucketId = id) .positionBucketMismatch
  let length ← sub p.range.stop p.range.start
  check (amount ≤ length) .closeExceedsPosition
  let cut ← sub p.range.stop amount
  check (b.exerciseCursor ≤ cut) .closeRangeExercised
  check (b.overlapsSpread cut p.range.stop = false) .spreadPosition
  let base ← b.toBucket.burn amount
  let q ← base.toQueue.insertClosed cut p.range.stop
  let redeemed ← addU128 b.totalRedeemed amount
  let refund ← applyStrikeFloor amount b.strike b.strikeScale
  let base ← (base.withQueue q).splitSettlement refund
  pure ({ p with range := ⟨p.range.start, cut⟩ }, { b with toBucket := base, totalRedeemed := redeemed })

def requiredSpreadTopUp (b long : PutBucket ι) (amount : Nat) : Result Error Nat := do
  let need ← spreadCashNeed amount b.strike b.strikeScale long.strike long.strikeScale
  addU64 need 1

def writeSpread (now : Nat) (allowed : Bool) (b : PutBucket ι) (longId : ι) (long : PutBucket ι)
    (amount topUp : Nat) : Result Error (Range × PutBucket ι) := do
  check (allowed = true) .ingressNotAllowed
  check (now < b.expiryMs) .bucketExpired
  check (b.invalidated = false) .bucketInvalidated
  check (0 < amount) .zeroAmount
  check (b.expiryMs ≤ long.expiryMs) .spreadExpiryMismatch
  let required ← b.requiredSpreadTopUp long amount
  check (topUp = required) .settlementAmountMismatch
  let (range, base) ← b.toBucket.extend amount
  let base := { base with spreads := base.spreads ++ [range] }
  let base ← base.addEscrow range.start ⟨amount, topUp, longId⟩
  let base ← base.mint amount
  pure (range, { b with toBucket := base })

/-- The payout and the escrow cash left: proceeds above the target stay in the
escrow, a deficit is drawn from it as far as it goes. -/
def settleSpread (proceeds target cash : Nat) : Nat × Nat :=
  if target < proceeds then (target, cash + (proceeds - target))
  else
    let deficit := target - proceeds
    let take := if cash < deficit then cash else deficit
    (proceeds + take, cash - take)

def exerciseSpread [DecidableEq ι] (now : Nat) (b : PutBucket ι) (longId : ι) (long : PutBucket ι)
    (amount delivery : Nat) : Result Error (Nat × PutBucket ι × PutBucket ι) := do
  check (now < b.expiryMs) .bucketExpired
  check (0 < amount) .zeroAmount
  check (delivery = amount) .amountMismatch
  let cur := b.exerciseCursor
  let rangeStart := b.toQueue.nextSpreadStart cur
  check (rangeStart ≤ cur) .putSpreadNotAtCursor
  let s ← b.toQueue.findSpread rangeStart
  let reached ← addU128 cur amount
  check (reached ≤ s.stop) .cursorOverflow
  let base ← b.toBucket.burn amount
  let assigned ← sub cur rangeStart
  let assigning ← addU128 assigned amount
  let escrow ← need (base.escrows rangeStart) (.code .fieldMissing)
  check (escrow.longBucketId = longId) .spreadBucketMismatch
  check (amount ≤ escrow.long) .notEnoughLong
  let high ← applyStrikeCeil assigning b.strike b.strikeScale
  let low ← applyStrikeCeil assigned b.strike b.strikeScale
  let target ← sub high low
  let (proceeds, long) ← long.exercise now amount delivery
  let (payout, cash) := settleSpread proceeds target escrow.cash
  let base := { base with
    escrows := Function.update base.escrows rangeStart (some ⟨escrow.long - amount, cash, escrow.longBucketId⟩) }
  let walk ← flush reached base.closed base.closedPending
  pure (payout, { b with toBucket := base.withQueue (base.toQueue.withWalk walk) }, long)

def closeSpread [DecidableEq ι] (now : Nat) (id : ι) (b : PutBucket ι) (p : Position ι) (amount : Nat) :
    Result Error (SpreadEscrow ι × PutBucket ι) := do
  check (now < b.expiryMs) .bucketExpired
  check (p.bucketId = id) .positionBucketMismatch
  let s ← b.toQueue.findSpreadExact p.range.start p.range.stop
  let cut := assignedEnd b.exerciseCursor p.range
  let remaining ← sub p.range.stop cut
  check (amount = remaining) .amountMismatch
  let base ← b.toBucket.burn amount
  let q ← base.toQueue.closeRemaining cut p.range.stop remaining
  let whole ← sub p.range.stop p.range.start
  let redeemed ← addU128 b.totalRedeemed whole
  let (escrow, base) ← (base.withQueue (q.removeSpread s.start)).takeEscrow p.range.start
  pure (escrow, { b with toBucket := base, totalRedeemed := redeemed })

def redeemSpreadPosition [DecidableEq ι] (now : Nat) (id : ι) (b : PutBucket ι) (p : Position ι) :
    Result Error (SpreadEscrow ι × PutBucket ι) := do
  check (b.expiryMs ≤ now) .bucketNotExpired
  check (p.bucketId = id) .positionBucketMismatch
  let s ← b.toQueue.findSpreadExact p.range.start p.range.stop
  let whole ← sub p.range.stop p.range.start
  let redeemed ← addU128 b.totalRedeemed whole
  let (escrow, base) ← (b.toBucket.withQueue (b.toQueue.removeSpread s.start)).takeEscrow p.range.start
  pure (escrow, { b with toBucket := base, totalRedeemed := redeemed })

/-- The functions that only touch the supply or the flag are the call side's. -/
def onBucket (b : PutBucket ι) (ran : Result Error (Bucket ι)) : Result Error (PutBucket ι) := do
  let base ← ran
  pure { b with toBucket := base }

def burnExpiredOption (now : Nat) (b : PutBucket ι) (amount : Nat) : Result Error (PutBucket ι) :=
  b.onBucket (b.toBucket.burnExpiredOption now amount)

def invalidateBucket (now : Nat) (b : PutBucket ι) : Result Error (PutBucket ι) :=
  b.onBucket (b.toBucket.invalidateBucket now)

def revalidateBucket (now : Nat) (b : PutBucket ι) : Result Error (PutBucket ι) :=
  b.onBucket (b.toBucket.revalidateBucket now)

section Inversion

variable {now amount collateral delivery payout topUp : Nat} {id longId : ι} {b next long longNext : PutBucket ι}
  {p q : Position ι} {range : Range} {escrow : SpreadEscrow ι}

theorem writeAndCheck_ok :
    b.writeAndCheck now collateral amount = .ok (range, next) ↔
      now < b.expiryMs ∧ b.invalidated = false ∧ b.requiredCollateral amount = .ok collateral ∧
      b.totalWritten + amount < u128Bound ∧ b.supply + amount < u64Bound - 1 ∧
      range = ⟨b.totalWritten, b.totalWritten + amount⟩ ∧
      next = { b with settlementBalance := b.settlementBalance + collateral
                      totalWritten := b.totalWritten + amount
                      supply := b.supply + amount } := by
  constructor
  · intro ran
    obtain ⟨live, ran⟩ := check_bind_ok.mp ran
    obtain ⟨valid, ran⟩ := check_bind_ok.mp ran
    obtain ⟨required, priced, ran⟩ := bind_ok.mp ran
    obtain ⟨rfl, paid⟩ := check_bind_ok.mp ran
    obtain ⟨⟨_, _⟩, extended, ran⟩ := bind_ok.mp paid
    obtain ⟨small, rfl, rfl⟩ := Bucket.extend_ok.mp extended
    obtain ⟨_, minted, ran⟩ := bind_ok.mp ran
    obtain ⟨fits, rfl⟩ := Bucket.mint_ok.mp minted
    cases pure_ok.mp ran
    exact ⟨live, valid, priced, small, fits, rfl, rfl⟩
  · rintro ⟨live, valid, priced, small, fits, rfl, rfl⟩
    refine check_bind_ok.mpr ⟨live, check_bind_ok.mpr ⟨valid, bind_ok.mpr ⟨_, priced, check_bind_ok.mpr ⟨rfl, ?_⟩⟩⟩⟩
    refine bind_ok.mpr ⟨(_, _), Bucket.extend_ok.mpr ⟨small, rfl, rfl⟩, ?_⟩
    exact bind_ok.mpr ⟨_, Bucket.mint_ok.mpr ⟨fits, rfl⟩, rfl⟩

theorem exercise_ok :
    b.exercise now amount delivery = .ok (payout, next) ↔
      now < b.expiryMs ∧ 0 < amount ∧ delivery = amount ∧
      b.exerciseCursor + amount + b.closedPending < u128Bound ∧
      b.exerciseCursor + amount + b.closedPending ≤ b.totalWritten ∧ amount ≤ b.supply ∧
      ∃ walked, b.toQueue.advanceCursor b.toQueue.nextSpreadStart .putSpreadExerciseRequired amount = .ok walked ∧
        applyStrikeFloor amount b.strike b.strikeScale = .ok payout ∧ payout ≤ b.settlementBalance ∧
        next = { b with toQueue := walked
                        supply := b.supply - amount
                        underlyingBalance := b.underlyingBalance + amount
                        settlementBalance := b.settlementBalance - payout } := by
  constructor
  · intro ran
    obtain ⟨live, ran⟩ := check_bind_ok.mp ran
    obtain ⟨positive, ran⟩ := check_bind_ok.mp ran
    obtain ⟨rfl, delivered⟩ := check_bind_ok.mp ran
    obtain ⟨_, first, ran⟩ := bind_ok.mp delivered
    obtain ⟨_, rfl⟩ := fit_ok.mp first
    obtain ⟨_, second, ran⟩ := bind_ok.mp ran
    obtain ⟨small, rfl⟩ := fit_ok.mp second
    obtain ⟨capacity, ran⟩ := check_bind_ok.mp ran
    obtain ⟨_, burned, ran⟩ := bind_ok.mp ran
    obtain ⟨enough, rfl⟩ := Bucket.burn_ok.mp burned
    obtain ⟨walked, advanced, ran⟩ := bind_ok.mp ran
    obtain ⟨_, priced, ran⟩ := bind_ok.mp ran
    obtain ⟨_, split, ran⟩ := bind_ok.mp ran
    obtain ⟨funded, rfl⟩ := Bucket.splitSettlement_ok.mp split
    cases pure_ok.mp ran
    exact ⟨live, positive, rfl, small, capacity, enough, walked, advanced, priced, funded, rfl⟩
  · rintro ⟨live, positive, rfl, small, capacity, enough, walked, advanced, priced, funded, rfl⟩
    refine check_bind_ok.mpr ⟨live, check_bind_ok.mpr ⟨positive, check_bind_ok.mpr ⟨rfl, ?_⟩⟩⟩
    refine bind_ok.mpr ⟨_, fit_of (by omega), bind_ok.mpr ⟨_, fit_of small, check_bind_ok.mpr ⟨capacity, ?_⟩⟩⟩
    refine bind_ok.mpr ⟨_, Bucket.burn_ok.mpr ⟨enough, rfl⟩, bind_ok.mpr ⟨walked, advanced, ?_⟩⟩
    refine bind_ok.mpr ⟨payout, priced, bind_ok.mpr ⟨_, Bucket.splitSettlement_ok.mpr ⟨funded, rfl⟩, rfl⟩⟩

theorem redeemPosition_ok [DecidableEq ι] (ran : b.redeemPosition now id p = .ok next) :
    b.expiryMs ≤ now ∧ p.bucketId = id ∧ b.overlapsSpread p.range.start p.range.stop = false ∧
      ∃ owed, applyStrikeFloor (p.range.size - exercisedUnits b.exerciseCursor p.range) b.strike b.strikeScale =
          .ok owed ∧
        exercisedUnits b.exerciseCursor p.range ≤ b.underlyingBalance ∧ owed ≤ b.settlementBalance ∧
        next = { b with
          underlyingBalance := b.underlyingBalance - exercisedUnits b.exerciseCursor p.range
          settlementBalance := b.settlementBalance - owed
          totalRedeemed := b.totalRedeemed + p.range.size } := by
  obtain ⟨expired, ran⟩ := check_bind_ok.mp ran
  obtain ⟨own, ran⟩ := check_bind_ok.mp ran
  obtain ⟨plain, ran⟩ := check_bind_ok.mp ran
  obtain ⟨_, whole, ran⟩ := bind_ok.mp ran
  obtain ⟨_, rfl⟩ := sub_ok.mp whole
  obtain ⟨_, rest, ran⟩ := bind_ok.mp ran
  obtain ⟨_, rfl⟩ := sub_ok.mp rest
  obtain ⟨_, counted, ran⟩ := bind_ok.mp ran
  obtain ⟨_, rfl⟩ := fit_ok.mp counted
  obtain ⟨_, cast, ran⟩ := bind_ok.mp ran
  obtain ⟨_, rfl⟩ := fit_ok.mp cast
  obtain ⟨owed, priced, ran⟩ := bind_ok.mp ran
  obtain ⟨_, split, ran⟩ := bind_ok.mp ran
  obtain ⟨backed, rfl⟩ := Bucket.splitUnderlying_ok.mp split
  obtain ⟨_, split, ran⟩ := bind_ok.mp ran
  obtain ⟨funded, rfl⟩ := Bucket.splitSettlement_ok.mp split
  cases pure_ok.mp ran
  exact ⟨expired, own, plain, owed, priced, backed, funded, rfl⟩

theorem closeOffset_ok [DecidableEq ι] (ran : b.closeOffset now id p amount = .ok (q, next)) :
    now < b.expiryMs ∧ 0 < amount ∧ p.bucketId = id ∧ amount ≤ p.range.stop - p.range.start ∧
      b.exerciseCursor ≤ p.range.stop - amount ∧
      b.overlapsSpread (p.range.stop - amount) p.range.stop = false ∧ amount ≤ b.supply ∧
      ∃ refund, applyStrikeFloor amount b.strike b.strikeScale = .ok refund ∧ refund ≤ b.settlementBalance ∧
      q = ⟨id, ⟨p.range.start, p.range.stop - amount⟩⟩ ∧
      next = { b with closed := insertRange b.closed (p.range.stop - amount) p.range.stop
                      closedPending := b.closedPending + (p.range.stop - (p.range.stop - amount))
                      supply := b.supply - amount
                      settlementBalance := b.settlementBalance - refund
                      totalRedeemed := b.totalRedeemed + amount } := by
  obtain ⟨live, ran⟩ := check_bind_ok.mp ran
  obtain ⟨positive, ran⟩ := check_bind_ok.mp ran
  obtain ⟨own, ran⟩ := check_bind_ok.mp ran
  obtain ⟨_, whole, ran⟩ := bind_ok.mp ran
  obtain ⟨_, rfl⟩ := sub_ok.mp whole
  obtain ⟨inside, ran⟩ := check_bind_ok.mp ran
  obtain ⟨_, rest, ran⟩ := bind_ok.mp ran
  obtain ⟨_, rfl⟩ := sub_ok.mp rest
  obtain ⟨unexercised, ran⟩ := check_bind_ok.mp ran
  obtain ⟨plain, ran⟩ := check_bind_ok.mp ran
  obtain ⟨_, burned, ran⟩ := bind_ok.mp ran
  obtain ⟨enough, rfl⟩ := Bucket.burn_ok.mp burned
  obtain ⟨_, inserted, ran⟩ := bind_ok.mp ran
  obtain ⟨_, _, rfl⟩ := Queue.insertClosed_ok.mp inserted
  obtain ⟨_, counted, ran⟩ := bind_ok.mp ran
  obtain ⟨_, rfl⟩ := fit_ok.mp counted
  obtain ⟨refund, priced, ran⟩ := bind_ok.mp ran
  obtain ⟨_, split, ran⟩ := bind_ok.mp ran
  obtain ⟨funded, rfl⟩ := Bucket.splitSettlement_ok.mp split
  cases pure_ok.mp ran
  refine ⟨live, positive, own, inside, unexercised, plain, enough, refund, priced, funded, ?_, rfl⟩
  rw [own]

theorem writeSpread_ok {allowed : Bool}
    (ran : b.writeSpread now allowed longId long amount topUp = .ok (range, next)) :
    now < b.expiryMs ∧ 0 < amount ∧ b.expiryMs ≤ long.expiryMs ∧ b.invalidated = false ∧
      (∃ cost, applyStrikeCeil amount b.strike b.strikeScale = .ok cost) ∧
      b.totalWritten + amount < u128Bound ∧ b.supply + amount < u64Bound - 1 ∧
      range = ⟨b.totalWritten, b.totalWritten + amount⟩ ∧ b.escrows b.totalWritten = none ∧
      next = { b with totalWritten := b.totalWritten + amount
                      spreads := b.spreads ++ [⟨b.totalWritten, b.totalWritten + amount⟩]
                      escrows := Function.update b.escrows b.totalWritten (some ⟨amount, topUp, longId⟩)
                      supply := b.supply + amount } := by
  obtain ⟨_, ran⟩ := check_bind_ok.mp ran
  obtain ⟨live, ran⟩ := check_bind_ok.mp ran
  obtain ⟨valid, ran⟩ := check_bind_ok.mp ran
  obtain ⟨positive, ran⟩ := check_bind_ok.mp ran
  obtain ⟨later, ran⟩ := check_bind_ok.mp ran
  obtain ⟨_, required, ran⟩ := bind_ok.mp ran
  obtain ⟨_, needed, _⟩ := bind_ok.mp required
  obtain ⟨cost, priced, _⟩ := bind_ok.mp needed
  obtain ⟨_, ran⟩ := check_bind_ok.mp ran
  obtain ⟨⟨_, _⟩, extended, ran⟩ := bind_ok.mp ran
  obtain ⟨small, rfl, rfl⟩ := Bucket.extend_ok.mp extended
  obtain ⟨_, added, ran⟩ := bind_ok.mp ran
  obtain ⟨free, rfl⟩ := Bucket.addEscrow_ok.mp added
  obtain ⟨_, minted, ran⟩ := bind_ok.mp ran
  obtain ⟨fits, rfl⟩ := Bucket.mint_ok.mp minted
  cases pure_ok.mp ran
  exact ⟨live, positive, later, valid, ⟨cost, priced⟩, small, fits, rfl, free, rfl⟩

theorem exerciseSpread_ok [DecidableEq ι] :
    b.exerciseSpread now longId long amount delivery = .ok (payout, next, longNext) ↔
      now < b.expiryMs ∧ 0 < amount ∧ delivery = amount ∧
      b.toQueue.nextSpreadStart b.exerciseCursor ≤ b.exerciseCursor ∧
      ∃ s escrow high low proceeds walk,
        b.toQueue.findSpread (b.toQueue.nextSpreadStart b.exerciseCursor) = .ok s ∧
        b.exerciseCursor + amount < u128Bound ∧ b.exerciseCursor + amount ≤ s.stop ∧ amount ≤ b.supply ∧
        b.escrows (b.toQueue.nextSpreadStart b.exerciseCursor) = some escrow ∧ escrow.longBucketId = longId ∧
        amount ≤ escrow.long ∧
        applyStrikeCeil (b.exerciseCursor - b.toQueue.nextSpreadStart b.exerciseCursor + amount) b.strike
          b.strikeScale = .ok high ∧
        applyStrikeCeil (b.exerciseCursor - b.toQueue.nextSpreadStart b.exerciseCursor) b.strike b.strikeScale =
          .ok low ∧ low ≤ high ∧
        long.exercise now amount amount = .ok (proceeds, longNext) ∧
        payout = (settleSpread proceeds (high - low) escrow.cash).1 ∧
        flush (b.exerciseCursor + amount) b.closed b.closedPending = .ok walk ∧
        next = { b with
          toQueue := b.toQueue.withWalk walk
          supply := b.supply - amount
          escrows := Function.update b.escrows (b.toQueue.nextSpreadStart b.exerciseCursor)
            (some ⟨escrow.long - amount, (settleSpread proceeds (high - low) escrow.cash).2,
              escrow.longBucketId⟩) } := by
  constructor
  · intro ran
    obtain ⟨live, ran⟩ := check_bind_ok.mp ran
    obtain ⟨positive, ran⟩ := check_bind_ok.mp ran
    obtain ⟨rfl, delivered⟩ := check_bind_ok.mp ran
    obtain ⟨reached, ran⟩ := check_bind_ok.mp delivered
    obtain ⟨s, found, ran⟩ := bind_ok.mp ran
    obtain ⟨_, moved, ran⟩ := bind_ok.mp ran
    obtain ⟨small, rfl⟩ := fit_ok.mp moved
    obtain ⟨inside, ran⟩ := check_bind_ok.mp ran
    obtain ⟨_, burned, ran⟩ := bind_ok.mp ran
    obtain ⟨enough, rfl⟩ := Bucket.burn_ok.mp burned
    obtain ⟨_, assigned, ran⟩ := bind_ok.mp ran
    obtain ⟨_, rfl⟩ := sub_ok.mp assigned
    obtain ⟨_, assigning, ran⟩ := bind_ok.mp ran
    obtain ⟨_, rfl⟩ := fit_ok.mp assigning
    obtain ⟨escrow, borrowed, ran⟩ := bind_ok.mp ran
    obtain ⟨backer, ran⟩ := check_bind_ok.mp ran
    obtain ⟨longs, ran⟩ := check_bind_ok.mp ran
    obtain ⟨high, ceilHigh, ran⟩ := bind_ok.mp ran
    obtain ⟨low, ceilLow, ran⟩ := bind_ok.mp ran
    obtain ⟨_, difference, ran⟩ := bind_ok.mp ran
    obtain ⟨ordered, rfl⟩ := sub_ok.mp difference
    obtain ⟨⟨proceeds, _⟩, exercised, ran⟩ := bind_ok.mp ran
    obtain ⟨walk, flushed, ran⟩ := bind_ok.mp ran
    cases pure_ok.mp ran
    exact ⟨live, positive, rfl, reached, s, escrow, high, low, proceeds, walk, found, small, inside, enough,
      need_ok.mp borrowed, backer, longs, ceilHigh, ceilLow, ordered, exercised, rfl, flushed, rfl⟩
  · rintro ⟨live, positive, rfl, reached, s, escrow, high, low, proceeds, walk, found, small, inside, enough,
      borrowed, backer, longs, ceilHigh, ceilLow, ordered, exercised, rfl, flushed, rfl⟩
    refine check_bind_ok.mpr ⟨live, check_bind_ok.mpr ⟨positive, check_bind_ok.mpr ⟨rfl, ?_⟩⟩⟩
    refine check_bind_ok.mpr ⟨reached, bind_ok.mpr ⟨s, found, bind_ok.mpr ⟨_, fit_of small, ?_⟩⟩⟩
    refine check_bind_ok.mpr ⟨inside, bind_ok.mpr ⟨_, Bucket.burn_ok.mpr ⟨enough, rfl⟩, ?_⟩⟩
    refine bind_ok.mpr ⟨_, sub_of reached, bind_ok.mpr ⟨_, fit_of (by omega), ?_⟩⟩
    refine bind_ok.mpr ⟨escrow, need_ok.mpr borrowed, check_bind_ok.mpr ⟨backer, check_bind_ok.mpr ⟨longs, ?_⟩⟩⟩
    refine bind_ok.mpr ⟨high, ceilHigh, bind_ok.mpr ⟨low, ceilLow, bind_ok.mpr ⟨_, sub_of ordered, ?_⟩⟩⟩
    exact bind_ok.mpr ⟨(proceeds, _), exercised, bind_ok.mpr ⟨walk, flushed, rfl⟩⟩

/-- The queue after a close: the unassigned part, if any, becomes a tombstone. -/
def closedQueue (q : Queue) (cut : Nat) (r : Range) : Queue :=
  { q with closed := if cut < r.stop then insertRange q.closed cut r.stop else q.closed
           closedPending := q.closedPending + (r.stop - cut) }

theorem closeSpread_ok [DecidableEq ι] (ran : b.closeSpread now id p amount = .ok (escrow, next)) :
    now < b.expiryMs ∧ p.bucketId = id ∧ p.range ∈ b.spreads ∧
      amount = p.range.stop - assignedEnd b.exerciseCursor p.range ∧
      amount ≤ b.supply ∧ b.escrows p.range.start = some escrow ∧
      next = { b with
        toQueue := (closedQueue b.toQueue (assignedEnd b.exerciseCursor p.range) p.range).removeSpread p.range.start
        supply := b.supply - amount
        escrows := Function.update b.escrows p.range.start none
        totalRedeemed := b.totalRedeemed + p.range.size } := by
  obtain ⟨live, ran⟩ := check_bind_ok.mp ran
  obtain ⟨own, ran⟩ := check_bind_ok.mp ran
  obtain ⟨s, found, ran⟩ := bind_ok.mp ran
  obtain ⟨member, rfl⟩ := Queue.findSpreadExact_ok found
  obtain ⟨_, rest, ran⟩ := bind_ok.mp ran
  obtain ⟨_, rfl⟩ := sub_ok.mp rest
  obtain ⟨exact', ran⟩ := check_bind_ok.mp ran
  obtain ⟨_, burned, ran⟩ := bind_ok.mp ran
  obtain ⟨enough, rfl⟩ := Bucket.burn_ok.mp burned
  obtain ⟨q, inserted, ran⟩ := bind_ok.mp ran
  obtain ⟨_, whole, ran⟩ := bind_ok.mp ran
  obtain ⟨_, rfl⟩ := sub_ok.mp whole
  obtain ⟨_, counted, ran⟩ := bind_ok.mp ran
  obtain ⟨_, rfl⟩ := fit_ok.mp counted
  obtain ⟨⟨_, _⟩, taken, ran⟩ := bind_ok.mp ran
  obtain ⟨held, rfl⟩ := Bucket.takeEscrow_ok.mp taken
  cases pure_ok.mp ran
  have queue : q = closedQueue b.toQueue (assignedEnd b.exerciseCursor p.range) p.range := by
    unfold closedQueue
    unfold Queue.closeRemaining at inserted
    split at inserted
    · next some =>
      rw [if_pos (by omega)]
      exact (Queue.insertClosed_ok.mp inserted).2.2
    · next none =>
      rw [if_neg (by omega), Nat.sub_eq_zero_of_le (by omega)]
      cases inserted
      rfl
  subst queue
  exact ⟨live, own, member, exact', enough, held, rfl⟩

theorem redeemSpreadPosition_ok [DecidableEq ι] (ran : b.redeemSpreadPosition now id p = .ok (escrow, next)) :
    b.expiryMs ≤ now ∧ p.bucketId = id ∧ p.range ∈ b.spreads ∧ b.escrows p.range.start = some escrow ∧
      next = { b with toQueue := b.toQueue.removeSpread p.range.start
                      escrows := Function.update b.escrows p.range.start none
                      totalRedeemed := b.totalRedeemed + p.range.size } := by
  obtain ⟨expired, ran⟩ := check_bind_ok.mp ran
  obtain ⟨own, ran⟩ := check_bind_ok.mp ran
  obtain ⟨s, found, ran⟩ := bind_ok.mp ran
  obtain ⟨member, rfl⟩ := Queue.findSpreadExact_ok found
  obtain ⟨_, whole, ran⟩ := bind_ok.mp ran
  obtain ⟨_, rfl⟩ := sub_ok.mp whole
  obtain ⟨_, counted, ran⟩ := bind_ok.mp ran
  obtain ⟨_, rfl⟩ := fit_ok.mp counted
  obtain ⟨⟨_, _⟩, taken, ran⟩ := bind_ok.mp ran
  obtain ⟨held, rfl⟩ := Bucket.takeEscrow_ok.mp taken
  cases pure_ok.mp ran
  exact ⟨expired, own, member, held, rfl⟩

theorem onBucket_ok {ran : Result Error (Bucket ι)} (done : b.onBucket ran = .ok next) :
    ∃ base, ran = .ok base ∧ next = { b with toBucket := base } := by
  obtain ⟨base, inner, done⟩ := bind_ok.mp done
  exact ⟨base, inner, (pure_ok.mp done).symm⟩

end Inversion

end PutBucket

inductive PutOp (ι : Type) where
  | tick (now : Nat)
  | write (i : ι) (collateral amount : Nat)
  | exercise (i : ι) (amount delivery : Nat)
  | redeemPosition (i : ι) (p : Position ι)
  | burnExpiredOption (i : ι) (amount : Nat)
  | invalidateBucket (i : ι)
  | revalidateBucket (i : ι)
  | closeOffset (i : ι) (p : Position ι) (amount : Nat)
  | destroyEmpty (p : Position ι)
  | writeSpread (allowed : Bool) (i j : ι) (amount topUp : Nat)
  | exerciseSpread (i j : ι) (amount delivery : Nat)
  | closeSpread (i : ι) (p : Position ι) (amount : Nat)
  | redeemSpreadPosition (i : ι) (p : Position ι)

variable {ι : Type} [DecidableEq ι]

abbrev PutSystem (ι : Type) := System ι (PutBucket ι)

def putStep (s : PutSystem ι) : PutOp ι → Result Error (PutSystem ι)
  | .tick now => do
    check (s.now ≤ now) .clockRegression
    pure { s with now := now }
  | .write i collateral amount => do
    let (range, b) ← (s.buckets i).writeAndCheck s.now collateral amount
    pure (((s.setBucket i b).addPosition i range).pay i amount)
  | .exercise i amount delivery => do
    let s ← s.take i amount
    let (_, b) ← (s.buckets i).exercise s.now amount delivery
    pure ((s.setBucket i b).retire i (skippedRanges (s.buckets i).toQueue b.toQueue))
  | .redeemPosition i p => do
    let s ← s.takePosition p
    let b ← (s.buckets i).redeemPosition s.now i p
    pure ((s.setBucket i b).retire i [p.range])
  | .burnExpiredOption i amount => do
    let s ← s.take i amount
    let b ← (s.buckets i).burnExpiredOption s.now amount
    pure (s.setBucket i b)
  | .invalidateBucket i => do
    let b ← (s.buckets i).invalidateBucket s.now
    pure (s.setBucket i b)
  | .revalidateBucket i => do
    let b ← (s.buckets i).revalidateBucket s.now
    pure (s.setBucket i b)
  | .closeOffset i p amount => do
    let s ← s.take i amount
    let s ← s.takePosition p
    let (p, b) ← (s.buckets i).closeOffset s.now i p amount
    pure ((s.setBucket i b).addPosition p.bucketId p.range)
  | .destroyEmpty p => do
    check (p.range.start = p.range.stop) .zeroAmount
    s.takePosition p
  | .writeSpread allowed i j amount topUp => do
    check (i ≠ j) .sameObject
    let s ← s.take j amount
    let (range, b) ← (s.buckets i).writeSpread s.now allowed j (s.buckets j) amount topUp
    pure (((s.setBucket i b).addPosition i range).pay i amount)
  | .exerciseSpread i j amount delivery => do
    check (i ≠ j) .sameObject
    let s ← s.take i amount
    let (_, b, long) ← (s.buckets i).exerciseSpread s.now j (s.buckets j) amount delivery
    pure ((((s.setBucket i b).setBucket j long).retire i (skippedRanges (s.buckets i).toQueue b.toQueue)).retire j
      (skippedRanges (s.buckets j).toQueue long.toQueue))
  | .closeSpread i p amount => do
    let s ← s.take i amount
    let s ← s.takePosition p
    let (escrow, b) ← (s.buckets i).closeSpread s.now i p amount
    pure (((s.setBucket i b).retire i [⟨p.range.start, assignedEnd (s.buckets i).exerciseCursor p.range⟩]).pay
      escrow.longBucketId escrow.long)
  | .redeemSpreadPosition i p => do
    let s ← s.takePosition p
    let (escrow, b) ← (s.buckets i).redeemSpreadPosition s.now i p
    pure (((s.setBucket i b).retire i [p.range]).pay escrow.longBucketId escrow.long)

section Moves

inductive PutMove (s : PutSystem ι) : PutOp ι → PutSystem ι → Prop where
  | tick {now : Nat} : s.now ≤ now → PutMove s (.tick now) { s with now := now }
  | write {i : ι} {collateral amount : Nat} {range : Range} {b : PutBucket ι} :
      (s.buckets i).writeAndCheck s.now collateral amount = .ok (range, b) →
      PutMove s (.write i collateral amount) (((s.setBucket i b).addPosition i range).pay i amount)
  | exercise {i : ι} {amount delivery payout : Nat} {b : PutBucket ι} : amount ≤ s.wallets i →
      (s.buckets i).exercise s.now amount delivery = .ok (payout, b) →
      PutMove s (.exercise i amount delivery)
        (((s.spend i amount).setBucket i b).retire i (skippedRanges (s.buckets i).toQueue b.toQueue))
  | redeem {i : ι} {p : Position ι} {b : PutBucket ι} : p ∈ s.positions →
      (s.buckets i).redeemPosition s.now i p = .ok b →
      PutMove s (.redeemPosition i p) (((s.dropPosition p).setBucket i b).retire i [p.range])
  | burn {i : ι} {amount : Nat} : amount ≤ s.wallets i → (s.buckets i).expiryMs ≤ s.now →
      PutMove s (.burnExpiredOption i amount) ((s.spend i amount).setBucket i
        { s.buckets i with supply := (s.buckets i).supply - amount })
  | invalidate (i : ι) :
      PutMove s (.invalidateBucket i) (s.setBucket i { s.buckets i with invalidated := true })
  | revalidate (i : ι) :
      PutMove s (.revalidateBucket i) (s.setBucket i { s.buckets i with invalidated := false })
  | closeOffset {i : ι} {p q : Position ι} {amount : Nat} {b : PutBucket ι} : amount ≤ s.wallets i →
      p ∈ s.positions → (s.buckets i).closeOffset s.now i p amount = .ok (q, b) →
      PutMove s (.closeOffset i p amount)
        ((((s.spend i amount).dropPosition p).setBucket i b).addPosition q.bucketId q.range)
  | destroy {p : Position ι} : p ∈ s.positions → p.range.start = p.range.stop →
      PutMove s (.destroyEmpty p) (s.dropPosition p)
  | writeSpread {allowed : Bool} {i j : ι} {amount topUp : Nat} {range : Range} {b : PutBucket ι} : i ≠ j →
      amount ≤ s.wallets j →
      (s.buckets i).writeSpread s.now allowed j (s.buckets j) amount topUp = .ok (range, b) →
      PutMove s (.writeSpread allowed i j amount topUp)
        ((((s.spend j amount).setBucket i b).addPosition i range).pay i amount)
  | exerciseSpread {i j : ι} {amount delivery payout : Nat} {b long : PutBucket ι} : i ≠ j →
      amount ≤ s.wallets i →
      (s.buckets i).exerciseSpread s.now j (s.buckets j) amount delivery = .ok (payout, b, long) →
      PutMove s (.exerciseSpread i j amount delivery) (((((s.spend i amount).setBucket i b).setBucket j long).retire i
        (skippedRanges (s.buckets i).toQueue b.toQueue)).retire j
        (skippedRanges (s.buckets j).toQueue long.toQueue))
  | closeSpread {i : ι} {p : Position ι} {amount : Nat} {escrow : SpreadEscrow ι} {b : PutBucket ι} :
      amount ≤ s.wallets i → p ∈ s.positions → (s.buckets i).closeSpread s.now i p amount = .ok (escrow, b) →
      PutMove s (.closeSpread i p amount) (((((s.spend i amount).dropPosition p).setBucket i b).retire i
        [⟨p.range.start, assignedEnd (s.buckets i).exerciseCursor p.range⟩]).pay escrow.longBucketId escrow.long)
  | redeemSpread {i : ι} {p : Position ι} {escrow : SpreadEscrow ι} {b : PutBucket ι} : p ∈ s.positions →
      (s.buckets i).redeemSpreadPosition s.now i p = .ok (escrow, b) →
      PutMove s (.redeemSpreadPosition i p)
        ((((s.dropPosition p).setBucket i b).retire i [p.range]).pay escrow.longBucketId escrow.long)

theorem putStep_move {s next : PutSystem ι} {op : PutOp ι} (ran : putStep s op = .ok next) : PutMove s op next := by
  cases op with
  | tick now =>
    obtain ⟨later, rfl⟩ := check_pure_ok.mp ran
    exact .tick later
  | write i collateral amount =>
    obtain ⟨⟨range, b⟩, wrote, ran⟩ := bind_ok.mp ran
    cases pure_ok.mp ran
    exact .write wrote
  | exercise i amount delivery =>
    obtain ⟨_, taken, ran⟩ := bind_ok.mp ran
    obtain ⟨held, rfl⟩ := System.take_ok.mp taken
    obtain ⟨⟨payout, b⟩, exercised, ran⟩ := bind_ok.mp ran
    cases pure_ok.mp ran
    exact .exercise held exercised
  | redeemPosition i p =>
    obtain ⟨_, taken, ran⟩ := bind_ok.mp ran
    obtain ⟨member, rfl⟩ := System.takePosition_ok.mp taken
    obtain ⟨b, redeemed, ran⟩ := bind_ok.mp ran
    cases pure_ok.mp ran
    exact .redeem member redeemed
  | burnExpiredOption i amount =>
    obtain ⟨_, taken, ran⟩ := bind_ok.mp ran
    obtain ⟨held, rfl⟩ := System.take_ok.mp taken
    obtain ⟨b, burned, ran⟩ := bind_ok.mp ran
    cases pure_ok.mp ran
    obtain ⟨_, inner, rfl⟩ := PutBucket.onBucket_ok burned
    obtain ⟨expired, rfl⟩ := Bucket.burnExpiredOption_ok inner
    exact .burn held expired
  | invalidateBucket i =>
    obtain ⟨b, flagged, ran⟩ := bind_ok.mp ran
    cases pure_ok.mp ran
    obtain ⟨_, inner, rfl⟩ := PutBucket.onBucket_ok flagged
    cases Bucket.invalidateBucket_ok inner
    exact .invalidate i
  | revalidateBucket i =>
    obtain ⟨b, flagged, ran⟩ := bind_ok.mp ran
    cases pure_ok.mp ran
    obtain ⟨_, inner, rfl⟩ := PutBucket.onBucket_ok flagged
    cases Bucket.revalidateBucket_ok inner
    exact .revalidate i
  | closeOffset i p amount =>
    obtain ⟨_, taken, ran⟩ := bind_ok.mp ran
    obtain ⟨held, rfl⟩ := System.take_ok.mp taken
    obtain ⟨_, removed, ran⟩ := bind_ok.mp ran
    obtain ⟨member, rfl⟩ := System.takePosition_ok.mp removed
    obtain ⟨⟨q, b⟩, closed, ran⟩ := bind_ok.mp ran
    cases pure_ok.mp ran
    exact .closeOffset held member closed
  | destroyEmpty p =>
    obtain ⟨empty, ran⟩ := check_bind_ok.mp ran
    obtain ⟨member, rfl⟩ := System.takePosition_ok.mp ran
    exact .destroy member empty
  | writeSpread allowed i j amount topUp =>
    obtain ⟨different, ran⟩ := check_bind_ok.mp ran
    obtain ⟨_, taken, ran⟩ := bind_ok.mp ran
    obtain ⟨held, rfl⟩ := System.take_ok.mp taken
    obtain ⟨⟨range, b⟩, wrote, ran⟩ := bind_ok.mp ran
    cases pure_ok.mp ran
    exact .writeSpread different held wrote
  | exerciseSpread i j amount delivery =>
    obtain ⟨different, ran⟩ := check_bind_ok.mp ran
    obtain ⟨_, taken, ran⟩ := bind_ok.mp ran
    obtain ⟨held, rfl⟩ := System.take_ok.mp taken
    obtain ⟨⟨payout, b, long⟩, exercised, ran⟩ := bind_ok.mp ran
    cases pure_ok.mp ran
    exact .exerciseSpread different held exercised
  | closeSpread i p amount =>
    obtain ⟨_, taken, ran⟩ := bind_ok.mp ran
    obtain ⟨held, rfl⟩ := System.take_ok.mp taken
    obtain ⟨_, removed, ran⟩ := bind_ok.mp ran
    obtain ⟨member, rfl⟩ := System.takePosition_ok.mp removed
    obtain ⟨⟨escrow, b⟩, closed, ran⟩ := bind_ok.mp ran
    cases pure_ok.mp ran
    exact .closeSpread held member closed
  | redeemSpreadPosition i p =>
    obtain ⟨_, taken, ran⟩ := bind_ok.mp ran
    obtain ⟨member, rfl⟩ := System.takePosition_ok.mp taken
    obtain ⟨⟨escrow, b⟩, redeemed, ran⟩ := bind_ok.mp ran
    cases pure_ok.mp ran
    exact .redeemSpread member redeemed

end Moves

def PutBucket.create (terms : Terms) : PutBucket ι where
  toBucket := Bucket.create terms
  totalRedeemed := 0

def PutSystem.create (now : Nat) (terms : ι → Terms) : PutSystem ι where
  now := now
  buckets := fun i => PutBucket.create (terms i)
  positions := []
  wallets := fun _ => 0
  retired := fun _ => []

end SuiOptions.Core
