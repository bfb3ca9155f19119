import SuiOptions.Core.Queue

/-! The objects both bucket modules work on, and the invariant of the queue.

Buckets are found by identifiers of any type. Option coins outside escrows are
counted per bucket, and the ranges that leave the live set (tombstones the
cursor skipped, positions redeemed) are recorded; no operation reads that
record.
-/

set_option autoImplicit false

namespace SuiOptions.Core

open Execution Move Ranges

structure Position (ι : Type) where
  bucketId : ι
  range : Range
  deriving DecidableEq, Repr

structure SpreadEscrow (ι : Type) where
  long : Nat
  cash : Nat
  longBucketId : ι
  deriving DecidableEq, Repr

/-- A call bucket. `supply` is the total supply of the option coin whose
treasury the bucket owns; `escrows` are its dynamic fields, by range start. -/
structure Bucket (ι : Type) extends Queue where
  expiryMs : Nat
  strike : Nat
  strikeScale : Nat
  underlyingBalance : Nat
  settlementBalance : Nat
  supply : Nat
  invalidated : Bool
  escrows : Nat → Option (SpreadEscrow ι)

structure PutBucket (ι : Type) extends Bucket ι where
  totalRedeemed : Nat

structure System (ι β : Type) where
  now : Nat
  buckets : ι → β
  positions : List (Position ι)
  wallets : ι → Nat
  retired : ι → List Range

variable {ι β : Type} [DecidableEq ι]

namespace Bucket

variable {ι : Type}

/-- `coin::mint`; the framework keeps the supply below the largest `u64`. -/
def mint (b : Bucket ι) (amount : Nat) : Result Error (Bucket ι) := do
  check (b.supply + amount < u64Bound - 1) .supplyOverflow
  pure { b with supply := b.supply + amount }

def burn (b : Bucket ι) (amount : Nat) : Result Error (Bucket ι) := do
  check (amount ≤ b.supply) .supplyOverflow
  pure { b with supply := b.supply - amount }

def splitUnderlying (b : Bucket ι) (amount : Nat) : Result Error (Bucket ι) := do
  check (amount ≤ b.underlyingBalance) .notEnoughUnderlying
  pure { b with underlyingBalance := b.underlyingBalance - amount }

def splitSettlement (b : Bucket ι) (amount : Nat) : Result Error (Bucket ι) := do
  check (amount ≤ b.settlementBalance) .notEnoughSettlement
  pure { b with settlementBalance := b.settlementBalance - amount }

/-- `df::add` under the key of a range start. -/
def addEscrow (b : Bucket ι) (start : Nat) (escrow : SpreadEscrow ι) : Result Error (Bucket ι) := do
  check ((b.escrows start).isNone) .fieldExists
  pure { b with escrows := Function.update b.escrows start (some escrow) }

/-- `df::remove` -/
def takeEscrow (b : Bucket ι) (start : Nat) : Result Error (SpreadEscrow ι × Bucket ι) := do
  let escrow ← need (b.escrows start) (.code .fieldMissing)
  pure (escrow, { b with escrows := Function.update b.escrows start none })

def withQueue (b : Bucket ι) (q : Queue) : Bucket ι := { b with toQueue := q }

/-- Append `amount` units to the write space. -/
def extend (b : Bucket ι) (amount : Nat) : Result Error (Range × Bucket ι) := do
  let stop ← addU128 b.totalWritten amount
  pure (⟨b.totalWritten, stop⟩, { b with totalWritten := stop })

theorem mint_ok {b next : Bucket ι} {amount : Nat} :
    b.mint amount = .ok next ↔
      b.supply + amount < u64Bound - 1 ∧ next = { b with supply := b.supply + amount } := by
  exact check_pure_ok

theorem burn_ok {b next : Bucket ι} {amount : Nat} :
    b.burn amount = .ok next ↔ amount ≤ b.supply ∧ next = { b with supply := b.supply - amount } := by
  exact check_pure_ok

theorem splitUnderlying_ok {b next : Bucket ι} {amount : Nat} :
    b.splitUnderlying amount = .ok next ↔ amount ≤ b.underlyingBalance ∧
      next = { b with underlyingBalance := b.underlyingBalance - amount } := by
  exact check_pure_ok

theorem splitSettlement_ok {b next : Bucket ι} {amount : Nat} :
    b.splitSettlement amount = .ok next ↔ amount ≤ b.settlementBalance ∧
      next = { b with settlementBalance := b.settlementBalance - amount } := by
  exact check_pure_ok

theorem addEscrow_ok {b next : Bucket ι} {start : Nat} {escrow : SpreadEscrow ι} :
    b.addEscrow start escrow = .ok next ↔ b.escrows start = none ∧
      next = { b with escrows := Function.update b.escrows start (some escrow) } := by
  rw [addEscrow, check_pure_ok, Option.isNone_iff_eq_none]

theorem takeEscrow_ok {b next : Bucket ι} {start : Nat} {escrow : SpreadEscrow ι} :
    b.takeEscrow start = .ok (escrow, next) ↔ b.escrows start = some escrow ∧
      next = { b with escrows := Function.update b.escrows start none } := by
  simp only [takeEscrow, bind_ok, need_ok, pure_ok, Prod.mk.injEq]
  constructor
  · rintro ⟨_, found, rfl, rfl⟩
    exact ⟨found, rfl⟩
  · rintro ⟨found, rfl⟩
    exact ⟨_, found, rfl, rfl⟩

theorem extend_ok {b next : Bucket ι} {amount : Nat} {range : Range} :
    b.extend amount = .ok (range, next) ↔ b.totalWritten + amount < u128Bound ∧
      range = ⟨b.totalWritten, b.totalWritten + amount⟩ ∧
      next = { b with totalWritten := b.totalWritten + amount } := by
  simp only [extend, bind_ok, addU128, fit_ok, pure_ok, Prod.mk.injEq]
  constructor
  · rintro ⟨_, ⟨small, rfl⟩, rfl, rfl⟩
    exact ⟨small, rfl, rfl⟩
  · rintro ⟨small, rfl, rfl⟩
    exact ⟨_, ⟨small, rfl⟩, rfl, rfl⟩

end Bucket

namespace System

def ranges (s : System ι β) (i : ι) : List Range :=
  (s.positions.filter (fun p => p.bucketId = i)).map Position.range

def setBucket (s : System ι β) (i : ι) (b : β) : System ι β :=
  { s with buckets := Function.update s.buckets i b }

def addPosition (s : System ι β) (i : ι) (range : Range) : System ι β :=
  { s with positions := ⟨i, range⟩ :: s.positions }

def dropPosition (s : System ι β) (p : Position ι) : System ι β :=
  { s with positions := s.positions.erase p }

def takePosition (s : System ι β) (p : Position ι) : Result Error (System ι β) := do
  check (p ∈ s.positions) .noSuchPosition
  pure (s.dropPosition p)

def pay (s : System ι β) (i : ι) (amount : Nat) : System ι β :=
  { s with wallets := Function.update s.wallets i (s.wallets i + amount) }

def spend (s : System ι β) (i : ι) (amount : Nat) : System ι β :=
  { s with wallets := Function.update s.wallets i (s.wallets i - amount) }

def take (s : System ι β) (i : ι) (amount : Nat) : Result Error (System ι β) := do
  check (amount ≤ s.wallets i) .noSuchCoin
  pure (s.spend i amount)

def retire (s : System ι β) (i : ι) (ranges : List Range) : System ι β :=
  { s with retired := Function.update s.retired i (ranges ++ s.retired i) }

section Views

variable {s next : System ι β} {i j : ι} {b : β} {range : Range} {amount : Nat} {p : Position ι}
  {ranges : List Range}

theorem take_ok : s.take i amount = .ok next ↔ amount ≤ s.wallets i ∧ next = s.spend i amount := check_pure_ok

theorem takePosition_ok : s.takePosition p = .ok next ↔ p ∈ s.positions ∧ next = s.dropPosition p := check_pure_ok

theorem ranges_drop (member : p ∈ s.positions) (i : ι) :
    (s.ranges i).Perm ((if p.bucketId = i then [p.range] else []) ++ (s.dropPosition p).ranges i) := by
  refine (((List.perm_cons_erase member).filter _).map _).trans ?_
  by_cases own : p.bucketId = i
  · simp [System.ranges, dropPosition, own]
  · simp [System.ranges, dropPosition, own]

theorem ranges_cons (i j : ι) (range : Range) :
    (s.addPosition i range).ranges j = (if i = j then [range] else []) ++ s.ranges j := by
  by_cases own : i = j
  · simp [System.ranges, addPosition, own]
  · simp [System.ranges, addPosition, own]

/-! One bucket changes, and what holds of a bucket that is left alone holds of the others. -/

variable {P : ι → β → List Range → List Range → Prop} {retired : ι → List Range}

theorem update_each (idle : ∀ k after, (s.ranges k).Perm after → P k (s.buckets k) after (s.retired k))
    (elsewhere : ∀ k, k ≠ i → retired k = s.retired k) (here : P i b (s.ranges i) (retired i)) (k : ι) :
    P k (Function.update s.buckets i b k) (s.ranges k) (retired k) := by
  by_cases own : k = i
  · subst own
    rw [Function.update_self]
    exact here
  · rw [Function.update_of_ne own, elsewhere k own]
    exact idle k _ (List.Perm.refl _)

theorem add_each (idle : ∀ k after, (s.ranges k).Perm after → P k (s.buckets k) after (s.retired k))
    (here : P i b (range :: s.ranges i) (s.retired i)) (k : ι) :
    P k (Function.update s.buckets i b k) ((s.addPosition i range).ranges k) (s.retired k) := by
  rw [ranges_cons]
  by_cases own : k = i
  · subst own
    rw [Function.update_self, if_pos rfl]
    exact here
  · rw [Function.update_of_ne own, if_neg (Ne.symm own)]
    exact idle k _ (List.Perm.refl _)

theorem drop_each (idle : ∀ k after, (s.ranges k).Perm after → P k (s.buckets k) after (s.retired k))
    (elsewhere : ∀ k, k ≠ i → retired k = s.retired k) (member : p ∈ s.positions) (own : p.bucketId = i)
    (here : ∀ after, (s.ranges i).Perm (p.range :: after) → P i b after (retired i)) (k : ι) :
    P k (Function.update s.buckets i b k) ((s.dropPosition p).ranges k) (retired k) := by
  have parts := ranges_drop member k
  by_cases same : k = i
  · subst same
    rw [if_pos own] at parts
    rw [Function.update_self]
    exact here _ parts
  · rw [own, if_neg (Ne.symm same)] at parts
    rw [Function.update_of_ne same, elsewhere k same]
    exact idle k _ parts

end Views

end System

/-- The tombstones that an operation took off the front of the list. -/
def skippedRanges (before after : Queue) : List Range :=
  before.closed.take (before.closed.length - after.closed.length)

end SuiOptions.Core
