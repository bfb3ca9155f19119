import SuiOptions.Core.Partition

/-! The covered-call bucket: `bucket.move`, function by function, and the system
of call buckets, positions and option coins it acts on. -/

set_option autoImplicit false

namespace SuiOptions.Core

open Execution Move Ranges

def Queue.nextSpread (q : Queue) : Nat → Nat := fun _ =>
  match q.spreads with
  | [] => q.totalWritten
  | s :: _ => s.start

def exercisedUnits (cursor : Nat) (r : Range) : Nat :=
  if cursor ≤ r.start then 0
  else if r.stop ≤ cursor then r.stop - r.start
  else cursor - r.start

theorem exercisedUnits_le (cursor : Nat) (r : Range) : exercisedUnits cursor r ≤ r.size := by
  simp only [exercisedUnits, Range.size]
  split_ifs <;> omega

theorem exercisedUnits_mono {cursor later : Nat} (advanced : cursor ≤ later) (r : Range) :
    exercisedUnits cursor r ≤ exercisedUnits later r := by
  simp only [exercisedUnits]
  split_ifs <;> omega

namespace Bucket

variable {ι : Type}

def requiredSettlement (b : Bucket ι) (amount : Nat) : Result Error Nat :=
  applyStrike amount b.strike b.strikeScale

def doWrite (b : Bucket ι) (amount : Nat) : Result Error (Range × Bucket ι) := do
  let b := { b with underlyingBalance := b.underlyingBalance + amount }
  let (range, b) ← b.extend amount
  let b ← b.mint amount
  pure (range, b)

/-- The checks every write venue makes before `doWrite`; the venues' own ones
(quote, ingress, a positive amount) only refuse more calls. -/
def writeAndCheck (now : Nat) (b : Bucket ι) (amount : Nat) : Result Error (Range × Bucket ι) := do
  check (now < b.expiryMs) .bucketExpired
  check (b.invalidated = false) .bucketInvalidated
  b.doWrite amount

def exercise (now : Nat) (b : Bucket ι) (amount payment : Nat) : Result Error (Bucket ι) := do
  check (now < b.expiryMs) .bucketExpired
  check (0 < amount) .zeroAmount
  let required ← b.requiredSettlement amount
  check (payment = required) .settlementAmountMismatch
  let used ← addU128 b.exerciseCursor amount
  let used ← addU128 used b.closedPending
  check (used ≤ b.totalWritten) .cursorOverflow
  let b ← b.burn amount
  let b := { b with settlementBalance := b.settlementBalance + payment }
  let q ← b.toQueue.advanceCursor b.toQueue.nextSpread .spreadUnwindRequired amount
  (b.withQueue q).splitUnderlying amount

def redeemPosition [DecidableEq ι] (now : Nat) (id : ι) (b : Bucket ι) (p : Position ι) : Result Error (Bucket ι) := do
  check (b.expiryMs ≤ now) .bucketNotExpired
  check (p.bucketId = id) .positionBucketMismatch
  check (b.overlapsSpread p.range.start p.range.stop = false) .spreadPosition
  let exercised := exercisedUnits b.exerciseCursor p.range
  let totalRange ← sub p.range.stop p.range.start
  let unexercised ← sub totalRange exercised
  let underlyingAmount ← castU64 unexercised
  let settlementAmount ← applyStrike exercised b.strike b.strikeScale
  let b ← b.splitUnderlying underlyingAmount
  b.splitSettlement settlementAmount

def burnExpiredOption (now : Nat) (b : Bucket ι) (amount : Nat) : Result Error (Bucket ι) := do
  check (b.expiryMs ≤ now) .bucketNotExpired
  b.burn amount

def invalidateBucket (now : Nat) (b : Bucket ι) : Result Error (Bucket ι) := do
  check (now < b.expiryMs) .bucketExpired
  check (b.invalidated = false) .bucketInvalidated
  pure { b with invalidated := true }

def revalidateBucket (now : Nat) (b : Bucket ι) : Result Error (Bucket ι) := do
  check (now < b.expiryMs) .bucketExpired
  check (b.invalidated = true) .bucketNotInvalidated
  pure { b with invalidated := false }

def closeOffset [DecidableEq ι] (now : Nat) (id : ι) (b : Bucket ι) (p : Position ι) (amount : Nat) :
    Result Error (Position ι × Bucket ι) := do
  check (now < b.expiryMs) .bucketExpired
  check (0 < amount) .zeroAmount
  check (p.bucketId = id) .positionBucketMismatch
  let length ← sub p.range.stop p.range.start
  check (amount ≤ length) .closeExceedsPosition
  let cut ← sub p.range.stop amount
  check (b.exerciseCursor ≤ cut) .closeRangeExercised
  check (b.overlapsSpread cut p.range.stop = false) .spreadPosition
  let b ← b.burn amount
  let q ← b.toQueue.insertClosed cut p.range.stop
  let b ← (b.withQueue q).splitUnderlying amount
  pure ({ p with range := ⟨p.range.start, cut⟩ }, b)

def writeSpread (now : Nat) (allowed : Bool) (b : Bucket ι) (longId : ι) (long : Bucket ι)
    (amount cash : Nat) : Result Error (Range × Bucket ι) := do
  check (allowed = true) .ingressNotAllowed
  check (now < b.expiryMs) .bucketExpired
  check (b.invalidated = false) .bucketInvalidated
  check (0 < amount) .zeroAmount
  check (b.expiryMs ≤ long.expiryMs) .spreadExpiryMismatch
  -- The products are taken in u256, where two u128 factors cannot overflow.
  let scale ← pow10 b.strikeScale
  let longScale ← pow10 long.strikeScale
  check (long.strike * scale ≤ b.strike * longScale) .spreadStrikeTooHigh
  let required ← long.requiredSettlement amount
  check (cash = required) .settlementAmountMismatch
  let (range, b) ← b.extend amount
  let b := { b with spreads := b.spreads ++ [range] }
  let b ← b.addEscrow range.start ⟨amount, cash, longId⟩
  let b ← b.mint amount
  pure (range, b)

def unwindSpread [DecidableEq ι] (now : Nat) (b : Bucket ι) (longId : ι) (long : Bucket ι) (start : Nat) :
    Result Error (Bucket ι × Bucket ι) := do
  let s ← b.toQueue.findSpread start
  let b := b.withQueue (b.toQueue.removeSpread s.start)
  let (escrow, b) ← b.takeEscrow s.start
  check (escrow.longBucketId = longId) .spreadBucketMismatch
  let long ← long.exercise now escrow.long escrow.cash
  pure ({ b with underlyingBalance := b.underlyingBalance + escrow.long }, long)

def closeSpread [DecidableEq ι] (now : Nat) (id : ι) (b : Bucket ι) (p : Position ι) (amount : Nat) :
    Result Error (SpreadEscrow ι × Bucket ι) := do
  check (now < b.expiryMs) .bucketExpired
  check (p.bucketId = id) .positionBucketMismatch
  let s ← b.toQueue.findSpreadExact p.range.start p.range.stop
  let length ← sub p.range.stop p.range.start
  check (amount = length) .amountMismatch
  let b ← b.burn amount
  let (escrow, b) ← (b.withQueue (b.toQueue.removeSpread s.start)).takeEscrow p.range.start
  let q ← b.toQueue.insertClosed p.range.start p.range.stop
  pure (escrow, b.withQueue q)

def redeemSpreadPosition [DecidableEq ι] (now : Nat) (id : ι) (b : Bucket ι) (p : Position ι) :
    Result Error (SpreadEscrow ι × Bucket ι) := do
  check (b.expiryMs ≤ now) .bucketNotExpired
  check (p.bucketId = id) .positionBucketMismatch
  let s ← b.toQueue.findSpreadExact p.range.start p.range.stop
  (b.withQueue (b.toQueue.removeSpread s.start)).takeEscrow p.range.start

section Inversion

variable {now amount payment cash start : Nat} {id longId : ι} {b next long longNext : Bucket ι} {p q : Position ι}
  {range : Range} {escrow : SpreadEscrow ι}

theorem writeAndCheck_ok :
    b.writeAndCheck now amount = .ok (range, next) ↔
      now < b.expiryMs ∧ b.invalidated = false ∧ b.totalWritten + amount < u128Bound ∧
      b.supply + amount < u64Bound - 1 ∧ range = ⟨b.totalWritten, b.totalWritten + amount⟩ ∧
      next = { b with underlyingBalance := b.underlyingBalance + amount
                      totalWritten := b.totalWritten + amount
                      supply := b.supply + amount } := by
  constructor
  · intro ran
    obtain ⟨live, ran⟩ := check_bind_ok.mp ran
    obtain ⟨valid, ran⟩ := check_bind_ok.mp ran
    obtain ⟨⟨_, _⟩, extended, ran⟩ := bind_ok.mp ran
    obtain ⟨small, rfl, rfl⟩ := extend_ok.mp extended
    obtain ⟨_, minted, ran⟩ := bind_ok.mp ran
    obtain ⟨fits, rfl⟩ := mint_ok.mp minted
    cases pure_ok.mp ran
    exact ⟨live, valid, small, fits, rfl, rfl⟩
  · rintro ⟨live, valid, small, fits, rfl, rfl⟩
    refine check_bind_ok.mpr ⟨live, check_bind_ok.mpr ⟨valid, ?_⟩⟩
    refine bind_ok.mpr ⟨(_, _), extend_ok.mpr ⟨small, rfl, rfl⟩, ?_⟩
    exact bind_ok.mpr ⟨_, mint_ok.mpr ⟨fits, rfl⟩, rfl⟩

theorem exercise_ok :
    b.exercise now amount payment = .ok next ↔
      now < b.expiryMs ∧ 0 < amount ∧ b.requiredSettlement amount = .ok payment ∧
      b.exerciseCursor + amount + b.closedPending < u128Bound ∧
      b.exerciseCursor + amount + b.closedPending ≤ b.totalWritten ∧ amount ≤ b.supply ∧
      ∃ walked, b.toQueue.advanceCursor b.toQueue.nextSpread .spreadUnwindRequired amount = .ok walked ∧
        amount ≤ b.underlyingBalance ∧
        next = { b with toQueue := walked
                        supply := b.supply - amount
                        settlementBalance := b.settlementBalance + payment
                        underlyingBalance := b.underlyingBalance - amount } := by
  constructor
  · intro ran
    obtain ⟨live, ran⟩ := check_bind_ok.mp ran
    obtain ⟨positive, ran⟩ := check_bind_ok.mp ran
    obtain ⟨required, priced, ran⟩ := bind_ok.mp ran
    obtain ⟨rfl, paid⟩ := check_bind_ok.mp ran
    obtain ⟨_, first, ran⟩ := bind_ok.mp paid
    obtain ⟨_, rfl⟩ := fit_ok.mp first
    obtain ⟨_, second, ran⟩ := bind_ok.mp ran
    obtain ⟨small, rfl⟩ := fit_ok.mp second
    obtain ⟨capacity, ran⟩ := check_bind_ok.mp ran
    obtain ⟨_, burned, ran⟩ := bind_ok.mp ran
    obtain ⟨enough, rfl⟩ := burn_ok.mp burned
    obtain ⟨walked, advanced, ran⟩ := bind_ok.mp ran
    obtain ⟨backed, rfl⟩ := splitUnderlying_ok.mp ran
    exact ⟨live, positive, priced, small, capacity, enough, walked, advanced, backed, rfl⟩
  · rintro ⟨live, positive, priced, small, capacity, enough, walked, advanced, backed, rfl⟩
    refine check_bind_ok.mpr ⟨live, check_bind_ok.mpr ⟨positive, bind_ok.mpr ⟨payment, priced, ?_⟩⟩⟩
    refine check_bind_ok.mpr ⟨rfl, bind_ok.mpr ⟨_, fit_of (by omega), bind_ok.mpr ⟨_, fit_of small, ?_⟩⟩⟩
    refine check_bind_ok.mpr ⟨capacity, bind_ok.mpr ⟨_, burn_ok.mpr ⟨enough, rfl⟩, ?_⟩⟩
    exact bind_ok.mpr ⟨walked, advanced, splitUnderlying_ok.mpr ⟨backed, rfl⟩⟩

theorem redeemPosition_ok [DecidableEq ι] (ran : b.redeemPosition now id p = .ok next) :
    b.expiryMs ≤ now ∧ p.bucketId = id ∧ b.overlapsSpread p.range.start p.range.stop = false ∧
      ∃ owed, applyStrike (exercisedUnits b.exerciseCursor p.range) b.strike b.strikeScale = .ok owed ∧
        p.range.size - exercisedUnits b.exerciseCursor p.range ≤ b.underlyingBalance ∧
        owed ≤ b.settlementBalance ∧
        next = { b with
          underlyingBalance := b.underlyingBalance - (p.range.size - exercisedUnits b.exerciseCursor p.range)
          settlementBalance := b.settlementBalance - owed } := by
  obtain ⟨expired, ran⟩ := check_bind_ok.mp ran
  obtain ⟨own, ran⟩ := check_bind_ok.mp ran
  obtain ⟨plain, ran⟩ := check_bind_ok.mp ran
  obtain ⟨_, whole, ran⟩ := bind_ok.mp ran
  obtain ⟨_, rfl⟩ := sub_ok.mp whole
  obtain ⟨_, rest, ran⟩ := bind_ok.mp ran
  obtain ⟨_, rfl⟩ := sub_ok.mp rest
  obtain ⟨_, cast, ran⟩ := bind_ok.mp ran
  obtain ⟨_, rfl⟩ := fit_ok.mp cast
  obtain ⟨owed, priced, ran⟩ := bind_ok.mp ran
  obtain ⟨_, split, ran⟩ := bind_ok.mp ran
  obtain ⟨backed, rfl⟩ := splitUnderlying_ok.mp split
  obtain ⟨funded, rfl⟩ := splitSettlement_ok.mp ran
  exact ⟨expired, own, plain, owed, priced, backed, funded, rfl⟩

theorem burnExpiredOption_ok (ran : b.burnExpiredOption now amount = .ok next) :
    b.expiryMs ≤ now ∧ next = { b with supply := b.supply - amount } := by
  obtain ⟨expired, ran⟩ := check_bind_ok.mp ran
  obtain ⟨_, rfl⟩ := burn_ok.mp ran
  exact ⟨expired, rfl⟩

theorem invalidateBucket_ok (ran : b.invalidateBucket now = .ok next) : next = { b with invalidated := true } := by
  obtain ⟨_, ran⟩ := check_bind_ok.mp ran
  exact (check_pure_ok.mp ran).2

theorem revalidateBucket_ok (ran : b.revalidateBucket now = .ok next) : next = { b with invalidated := false } := by
  obtain ⟨_, ran⟩ := check_bind_ok.mp ran
  exact (check_pure_ok.mp ran).2

theorem closeOffset_ok [DecidableEq ι] (ran : b.closeOffset now id p amount = .ok (q, next)) :
    now < b.expiryMs ∧ 0 < amount ∧ p.bucketId = id ∧ amount ≤ p.range.stop - p.range.start ∧
      b.exerciseCursor ≤ p.range.stop - amount ∧
      b.overlapsSpread (p.range.stop - amount) p.range.stop = false ∧ amount ≤ b.supply ∧
      q = ⟨id, ⟨p.range.start, p.range.stop - amount⟩⟩ ∧
      next = { b with closed := insertRange b.closed (p.range.stop - amount) p.range.stop
                      closedPending := b.closedPending + (p.range.stop - (p.range.stop - amount))
                      supply := b.supply - amount
                      underlyingBalance := b.underlyingBalance - amount } := by
  obtain ⟨live, ran⟩ := check_bind_ok.mp ran
  obtain ⟨positive, ran⟩ := check_bind_ok.mp ran
  obtain ⟨own, ran⟩ := check_bind_ok.mp ran
  obtain ⟨_, whole, ran⟩ := bind_ok.mp ran
  obtain ⟨_, rfl⟩ := sub_ok.mp whole
  obtain ⟨inside, ran⟩ := check_bind_ok.mp ran
  obtain ⟨_, rest, ran⟩ := bind_ok.mp ran
  obtain ⟨_, rfl⟩ := sub_ok.mp rest
  obtain ⟨unexercised, ran⟩ := check_bind_ok.mp ran
  obtain ⟨plain, ran⟩ := check_bind_ok.mp ran
  obtain ⟨_, burned, ran⟩ := bind_ok.mp ran
  obtain ⟨enough, rfl⟩ := burn_ok.mp burned
  obtain ⟨_, inserted, ran⟩ := bind_ok.mp ran
  obtain ⟨_, _, rfl⟩ := Queue.insertClosed_ok.mp inserted
  obtain ⟨_, split, ran⟩ := bind_ok.mp ran
  obtain ⟨_, rfl⟩ := splitUnderlying_ok.mp split
  cases pure_ok.mp ran
  refine ⟨live, positive, own, inside, unexercised, plain, enough, ?_, rfl⟩
  rw [own]

theorem writeSpread_ok {allowed : Bool}
    (ran : b.writeSpread now allowed longId long amount cash = .ok (range, next)) :
    now < b.expiryMs ∧ 0 < amount ∧ b.expiryMs ≤ long.expiryMs ∧
      long.strike * 10 ^ b.strikeScale ≤ b.strike * 10 ^ long.strikeScale ∧
      long.requiredSettlement amount = .ok cash ∧ b.totalWritten + amount < u128Bound ∧
      b.supply + amount < u64Bound - 1 ∧ range = ⟨b.totalWritten, b.totalWritten + amount⟩ ∧
      b.escrows b.totalWritten = none ∧
      next = { b with totalWritten := b.totalWritten + amount
                      spreads := b.spreads ++ [⟨b.totalWritten, b.totalWritten + amount⟩]
                      escrows := Function.update b.escrows b.totalWritten (some ⟨amount, cash, longId⟩)
                      supply := b.supply + amount } := by
  obtain ⟨_, ran⟩ := check_bind_ok.mp ran
  obtain ⟨live, ran⟩ := check_bind_ok.mp ran
  obtain ⟨_, ran⟩ := check_bind_ok.mp ran
  obtain ⟨positive, ran⟩ := check_bind_ok.mp ran
  obtain ⟨later, ran⟩ := check_bind_ok.mp ran
  obtain ⟨_, scale, ran⟩ := bind_ok.mp ran
  obtain ⟨_, rfl⟩ := pow10_ok.mp scale
  obtain ⟨_, longScale, ran⟩ := bind_ok.mp ran
  obtain ⟨_, rfl⟩ := pow10_ok.mp longScale
  obtain ⟨lower, ran⟩ := check_bind_ok.mp ran
  obtain ⟨_, priced, ran⟩ := bind_ok.mp ran
  obtain ⟨rfl, paid⟩ := check_bind_ok.mp ran
  obtain ⟨⟨_, _⟩, extended, ran⟩ := bind_ok.mp paid
  obtain ⟨small, rfl, rfl⟩ := extend_ok.mp extended
  obtain ⟨_, added, ran⟩ := bind_ok.mp ran
  obtain ⟨free, rfl⟩ := addEscrow_ok.mp added
  obtain ⟨_, minted, ran⟩ := bind_ok.mp ran
  obtain ⟨fits, rfl⟩ := mint_ok.mp minted
  cases pure_ok.mp ran
  exact ⟨live, positive, later, lower, priced, small, fits, rfl, free, rfl⟩

theorem unwindSpread_ok [DecidableEq ι] :
    b.unwindSpread now longId long start = .ok (next, longNext) ↔
      ∃ s escrow, b.toQueue.findSpread start = .ok s ∧ b.escrows s.start = some escrow ∧
        escrow.longBucketId = longId ∧ long.exercise now escrow.long escrow.cash = .ok longNext ∧
        next = { b with toQueue := b.toQueue.removeSpread s.start
                        escrows := Function.update b.escrows s.start none
                        underlyingBalance := b.underlyingBalance + escrow.long } := by
  constructor
  · intro ran
    obtain ⟨s, found, ran⟩ := bind_ok.mp ran
    obtain ⟨⟨escrow, _⟩, taken, ran⟩ := bind_ok.mp ran
    obtain ⟨held, rfl⟩ := takeEscrow_ok.mp taken
    obtain ⟨matching, ran⟩ := check_bind_ok.mp ran
    obtain ⟨_, exercised, ran⟩ := bind_ok.mp ran
    cases pure_ok.mp ran
    exact ⟨s, escrow, found, held, matching, exercised, rfl⟩
  · rintro ⟨s, escrow, found, held, matching, exercised, rfl⟩
    refine bind_ok.mpr ⟨s, found, bind_ok.mpr ⟨(escrow, _), takeEscrow_ok.mpr ⟨held, rfl⟩, ?_⟩⟩
    exact check_bind_ok.mpr ⟨matching, bind_ok.mpr ⟨longNext, exercised, rfl⟩⟩

theorem closeSpread_ok [DecidableEq ι] (ran : b.closeSpread now id p amount = .ok (escrow, next)) :
    now < b.expiryMs ∧ p.bucketId = id ∧ p.range ∈ b.spreads ∧ amount = p.range.stop - p.range.start ∧
      amount ≤ b.supply ∧ b.escrows p.range.start = some escrow ∧
      next = { b with closed := insertRange b.closed p.range.start p.range.stop
                      closedPending := b.closedPending + (p.range.stop - p.range.start)
                      spreads := (b.toQueue.removeSpread p.range.start).spreads
                      supply := b.supply - amount
                      escrows := Function.update b.escrows p.range.start none } := by
  obtain ⟨live, ran⟩ := check_bind_ok.mp ran
  obtain ⟨own, ran⟩ := check_bind_ok.mp ran
  obtain ⟨s, found, ran⟩ := bind_ok.mp ran
  obtain ⟨member, rfl⟩ := Queue.findSpreadExact_ok found
  obtain ⟨_, whole, ran⟩ := bind_ok.mp ran
  obtain ⟨_, rfl⟩ := sub_ok.mp whole
  obtain ⟨exact', ran⟩ := check_bind_ok.mp ran
  obtain ⟨_, burned, ran⟩ := bind_ok.mp ran
  obtain ⟨enough, rfl⟩ := burn_ok.mp burned
  obtain ⟨⟨_, _⟩, taken, ran⟩ := bind_ok.mp ran
  obtain ⟨held, rfl⟩ := takeEscrow_ok.mp taken
  obtain ⟨_, inserted, ran⟩ := bind_ok.mp ran
  obtain ⟨_, _, rfl⟩ := Queue.insertClosed_ok.mp inserted
  cases pure_ok.mp ran
  exact ⟨live, own, member, exact', enough, held, rfl⟩

theorem redeemSpreadPosition_ok [DecidableEq ι] (ran : b.redeemSpreadPosition now id p = .ok (escrow, next)) :
    b.expiryMs ≤ now ∧ p.bucketId = id ∧ p.range ∈ b.spreads ∧ b.escrows p.range.start = some escrow ∧
      next = { b with toQueue := b.toQueue.removeSpread p.range.start
                      escrows := Function.update b.escrows p.range.start none } := by
  obtain ⟨expired, ran⟩ := check_bind_ok.mp ran
  obtain ⟨own, ran⟩ := check_bind_ok.mp ran
  obtain ⟨s, found, ran⟩ := bind_ok.mp ran
  obtain ⟨member, rfl⟩ := Queue.findSpreadExact_ok found
  obtain ⟨held, rfl⟩ := takeEscrow_ok.mp ran
  exact ⟨expired, own, member, held, rfl⟩

end Inversion

end Bucket

inductive CallOp (ι : Type) where
  | tick (now : Nat)
  | write (i : ι) (amount : Nat)
  | exercise (i : ι) (amount payment : Nat)
  | redeemPosition (i : ι) (p : Position ι)
  | burnExpiredOption (i : ι) (amount : Nat)
  | invalidateBucket (i : ι)
  | revalidateBucket (i : ι)
  | closeOffset (i : ι) (p : Position ι) (amount : Nat)
  | destroyEmpty (p : Position ι)
  | writeSpread (allowed : Bool) (i j : ι) (amount cash : Nat)
  | unwindSpread (i j : ι) (start : Nat)
  | closeSpread (i : ι) (p : Position ι) (amount : Nat)
  | redeemSpreadPosition (i : ι) (p : Position ι)

variable {ι : Type} [DecidableEq ι]

abbrev CallSystem (ι : Type) := System ι (Bucket ι)

/-- One transaction. Coins and positions it consumes are taken from their
holders first; coins and positions it returns go back to them. -/
def callStep (s : CallSystem ι) : CallOp ι → Result Error (CallSystem ι)
  | .tick now => do
    check (s.now ≤ now) .clockRegression
    pure { s with now := now }
  | .write i amount => do
    let (range, b) ← (s.buckets i).writeAndCheck s.now amount
    pure (((s.setBucket i b).addPosition i range).pay i amount)
  | .exercise i amount payment => do
    let s ← s.take i amount
    let b ← (s.buckets i).exercise s.now amount payment
    pure ((s.setBucket i b).retire i (skippedRanges (s.buckets i).toQueue b.toQueue))
  | .redeemPosition i p => do
    let s ← s.takePosition p
    let b ← (s.buckets i).redeemPosition s.now i p
    pure ((s.setBucket i b).retire i [p.range])
  | .burnExpiredOption i amount => do
    let s ← s.take i amount
    let b ← (s.buckets i).burnExpiredOption s.now amount
    pure (s.setBucket i b)
  | .invalidateBucket i => do
    let b ← (s.buckets i).invalidateBucket s.now
    pure (s.setBucket i b)
  | .revalidateBucket i => do
    let b ← (s.buckets i).revalidateBucket s.now
    pure (s.setBucket i b)
  | .closeOffset i p amount => do
    let s ← s.take i amount
    let s ← s.takePosition p
    let (p, b) ← (s.buckets i).closeOffset s.now i p amount
    pure ((s.setBucket i b).addPosition p.bucketId p.range)
  | .destroyEmpty p => do
    check (p.range.start = p.range.stop) .zeroAmount
    s.takePosition p
  | .writeSpread allowed i j amount cash => do
    check (i ≠ j) .sameObject
    let s ← s.take j amount
    let (range, b) ← (s.buckets i).writeSpread s.now allowed j (s.buckets j) amount cash
    pure (((s.setBucket i b).addPosition i range).pay i amount)
  | .unwindSpread i j start => do
    check (i ≠ j) .sameObject
    let (b, long) ← (s.buckets i).unwindSpread s.now j (s.buckets j) start
    pure (((s.setBucket i b).setBucket j long).retire j
      (skippedRanges (s.buckets j).toQueue long.toQueue))
  | .closeSpread i p amount => do
    let s ← s.take i amount
    let s ← s.takePosition p
    let (escrow, b) ← (s.buckets i).closeSpread s.now i p amount
    pure ((s.setBucket i b).pay escrow.longBucketId escrow.long)
  | .redeemSpreadPosition i p => do
    let s ← s.takePosition p
    let (escrow, b) ← (s.buckets i).redeemSpreadPosition s.now i p
    pure (((s.setBucket i b).retire i [p.range]).pay escrow.longBucketId escrow.long)

section Moves

/-- An accepted transaction: its guards and the system it leaves. -/
inductive CallMove (s : CallSystem ι) : CallSystem ι → Prop where
  | tick {now : Nat} : s.now ≤ now → CallMove s { s with now := now }
  | write {i : ι} {amount : Nat} {range : Range} {b : Bucket ι} :
      (s.buckets i).writeAndCheck s.now amount = .ok (range, b) →
      CallMove s (((s.setBucket i b).addPosition i range).pay i amount)
  | exercise {i : ι} {amount payment : Nat} {b : Bucket ι} : amount ≤ s.wallets i →
      (s.buckets i).exercise s.now amount payment = .ok b →
      CallMove s (((s.spend i amount).setBucket i b).retire i (skippedRanges (s.buckets i).toQueue b.toQueue))
  | redeem {i : ι} {p : Position ι} {b : Bucket ι} : p ∈ s.positions →
      (s.buckets i).redeemPosition s.now i p = .ok b →
      CallMove s (((s.dropPosition p).setBucket i b).retire i [p.range])
  | burn {i : ι} {amount : Nat} {b : Bucket ι} : amount ≤ s.wallets i →
      (s.buckets i).burnExpiredOption s.now amount = .ok b → CallMove s ((s.spend i amount).setBucket i b)
  | flag (i : ι) (value : Bool) : CallMove s (s.setBucket i { s.buckets i with invalidated := value })
  | closeOffset {i : ι} {p q : Position ι} {amount : Nat} {b : Bucket ι} : amount ≤ s.wallets i →
      p ∈ s.positions → (s.buckets i).closeOffset s.now i p amount = .ok (q, b) →
      CallMove s ((((s.spend i amount).dropPosition p).setBucket i b).addPosition q.bucketId q.range)
  | destroy {p : Position ι} : p ∈ s.positions → p.range.start = p.range.stop → CallMove s (s.dropPosition p)
  | writeSpread {allowed : Bool} {i j : ι} {amount cash : Nat} {range : Range} {b : Bucket ι} : i ≠ j →
      amount ≤ s.wallets j →
      (s.buckets i).writeSpread s.now allowed j (s.buckets j) amount cash = .ok (range, b) →
      CallMove s ((((s.spend j amount).setBucket i b).addPosition i range).pay i amount)
  | unwind {i j : ι} {start : Nat} {b long : Bucket ι} : i ≠ j →
      (s.buckets i).unwindSpread s.now j (s.buckets j) start = .ok (b, long) →
      CallMove s (((s.setBucket i b).setBucket j long).retire j
        (skippedRanges (s.buckets j).toQueue long.toQueue))
  | closeSpread {i : ι} {p : Position ι} {amount : Nat} {escrow : SpreadEscrow ι} {b : Bucket ι} :
      amount ≤ s.wallets i → p ∈ s.positions → (s.buckets i).closeSpread s.now i p amount = .ok (escrow, b) →
      CallMove s ((((s.spend i amount).dropPosition p).setBucket i b).pay escrow.longBucketId escrow.long)
  | redeemSpread {i : ι} {p : Position ι} {escrow : SpreadEscrow ι} {b : Bucket ι} : p ∈ s.positions →
      (s.buckets i).redeemSpreadPosition s.now i p = .ok (escrow, b) →
      CallMove s ((((s.dropPosition p).setBucket i b).retire i [p.range]).pay escrow.longBucketId escrow.long)

theorem callStep_move {s next : CallSystem ι} {op : CallOp ι} (ran : callStep s op = .ok next) :
    CallMove s next := by
  cases op with
  | tick now =>
    obtain ⟨later, rfl⟩ := check_pure_ok.mp ran
    exact .tick later
  | write i amount =>
    obtain ⟨⟨range, b⟩, wrote, ran⟩ := bind_ok.mp ran
    cases pure_ok.mp ran
    exact .write wrote
  | exercise i amount payment =>
    obtain ⟨_, taken, ran⟩ := bind_ok.mp ran
    obtain ⟨held, rfl⟩ := System.take_ok.mp taken
    obtain ⟨b, exercised, ran⟩ := bind_ok.mp ran
    cases pure_ok.mp ran
    exact .exercise held exercised
  | redeemPosition i p =>
    obtain ⟨_, taken, ran⟩ := bind_ok.mp ran
    obtain ⟨member, rfl⟩ := System.takePosition_ok.mp taken
    obtain ⟨b, redeemed, ran⟩ := bind_ok.mp ran
    cases pure_ok.mp ran
    exact .redeem member redeemed
  | burnExpiredOption i amount =>
    obtain ⟨_, taken, ran⟩ := bind_ok.mp ran
    obtain ⟨held, rfl⟩ := System.take_ok.mp taken
    obtain ⟨b, burned, ran⟩ := bind_ok.mp ran
    cases pure_ok.mp ran
    exact .burn held burned
  | invalidateBucket i =>
    obtain ⟨b, flagged, ran⟩ := bind_ok.mp ran
    cases pure_ok.mp ran
    cases Bucket.invalidateBucket_ok flagged
    exact .flag i true
  | revalidateBucket i =>
    obtain ⟨b, flagged, ran⟩ := bind_ok.mp ran
    cases pure_ok.mp ran
    cases Bucket.revalidateBucket_ok flagged
    exact .flag i false
  | closeOffset i p amount =>
    obtain ⟨_, taken, ran⟩ := bind_ok.mp ran
    obtain ⟨held, rfl⟩ := System.take_ok.mp taken
    obtain ⟨_, removed, ran⟩ := bind_ok.mp ran
    obtain ⟨member, rfl⟩ := System.takePosition_ok.mp removed
    obtain ⟨⟨q, b⟩, closed, ran⟩ := bind_ok.mp ran
    cases pure_ok.mp ran
    exact .closeOffset held member closed
  | destroyEmpty p =>
    obtain ⟨empty, ran⟩ := check_bind_ok.mp ran
    obtain ⟨member, rfl⟩ := System.takePosition_ok.mp ran
    exact .destroy member empty
  | writeSpread allowed i j amount cash =>
    obtain ⟨different, ran⟩ := check_bind_ok.mp ran
    obtain ⟨_, taken, ran⟩ := bind_ok.mp ran
    obtain ⟨held, rfl⟩ := System.take_ok.mp taken
    obtain ⟨⟨range, b⟩, wrote, ran⟩ := bind_ok.mp ran
    cases pure_ok.mp ran
    exact .writeSpread different held wrote
  | unwindSpread i j start =>
    obtain ⟨different, ran⟩ := check_bind_ok.mp ran
    obtain ⟨⟨b, long⟩, unwound, ran⟩ := bind_ok.mp ran
    cases pure_ok.mp ran
    exact .unwind different unwound
  | closeSpread i p amount =>
    obtain ⟨_, taken, ran⟩ := bind_ok.mp ran
    obtain ⟨held, rfl⟩ := System.take_ok.mp taken
    obtain ⟨_, removed, ran⟩ := bind_ok.mp ran
    obtain ⟨member, rfl⟩ := System.takePosition_ok.mp removed
    obtain ⟨⟨escrow, b⟩, closed, ran⟩ := bind_ok.mp ran
    cases pure_ok.mp ran
    exact .closeSpread held member closed
  | redeemSpreadPosition i p =>
    obtain ⟨_, taken, ran⟩ := bind_ok.mp ran
    obtain ⟨member, rfl⟩ := System.takePosition_ok.mp taken
    obtain ⟨⟨escrow, b⟩, redeemed, ran⟩ := bind_ok.mp ran
    cases pure_ok.mp ran
    exact .redeemSpread member redeemed

end Moves

structure Terms where
  expiryMs : Nat
  strike : Nat
  strikeScale : Nat
  deriving DecidableEq, Repr

def Bucket.terms (b : Bucket ι) : Terms := ⟨b.expiryMs, b.strike, b.strikeScale⟩

def Bucket.create (terms : Terms) : Bucket ι where
  totalWritten := 0
  exerciseCursor := 0
  closed := []
  closedPending := 0
  spreads := []
  expiryMs := terms.expiryMs
  strike := terms.strike
  strikeScale := terms.strikeScale
  underlyingBalance := 0
  settlementBalance := 0
  supply := 0
  invalidated := false
  escrows := fun _ => none

/-- The system before its first transaction. A bucket that is created later is
there from the start and untouched until then. -/
def CallSystem.create (now : Nat) (terms : ι → Terms) : CallSystem ι where
  now := now
  buckets := fun i => Bucket.create (terms i)
  positions := []
  wallets := fun _ => 0
  retired := fun _ => []

end SuiOptions.Core
