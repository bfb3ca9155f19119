import SuiOptions.Core.CallCleanup
import SuiOptions.Core.PutSolvency

/-! Cleaning up an emptied put bucket.

`total_redeemed` counts every unit that left the live positions, so it reaches
`total_written` when the last of them goes. Cash beyond the strike value of the
idle plain units is rounding, and each operation rounds by less than one unit.
-/

set_option autoImplicit false

namespace SuiOptions.Core

open Execution Move Ranges

variable {ι : Type}

/-- The checks of `cleanup_bucket`; returns the cash that it sweeps. -/
def PutBucket.cleanupBucket (now : Nat) (b : PutBucket ι) : Result Error Nat := do
  check (b.expiryMs ≤ now) .bucketNotExpired
  check (b.spreads = []) .bucketNotDrained
  check (b.totalRedeemed = b.totalWritten) .bucketNotDrained
  check (b.underlyingBalance = 0) .bucketNotDrained
  pure b.settlementBalance

section Tally

/-- Every written unit is in a live position or counted as redeemed. -/
def PutBucket.Tallied (b : PutBucket ι) (live : List Range) : Prop := b.totalRedeemed + size live = b.totalWritten

variable [DecidableEq ι] {now : Nat} {buckets : ι → PutBucket ι} {i : ι} {next : PutBucket ι}
  {live retired after gone : List Range}

theorem PutChange.tallied (changed : PutChange now buckets i live retired next after gone)
    (tallied : (buckets i).Tallied live) : next.Tallied after := by
  unfold PutBucket.Tallied at tallied ⊢
  cases changed with
  | idle same => rw [← size_perm same]; exact tallied
  | write wrote =>
    obtain ⟨_, _, _, _, _, rfl, rfl⟩ := PutBucket.writeAndCheck_ok.mp wrote
    simp only [size_cons, Range.size]
    omega
  | exercise exercised =>
    obtain ⟨_, _, written, _⟩ := PutBucket.exercise_frame exercised
    obtain ⟨_, _, _, _, _, _, _, _, _, _, rfl⟩ := PutBucket.exercise_ok.mp exercised
    rw [written]
    exact tallied
  | redeem taken redeemed =>
    obtain ⟨_, _, _, _, _, _, _, rfl⟩ := PutBucket.redeemPosition_ok redeemed
    rw [size_perm taken, size_cons] at tallied
    simp only
    omega
  | burn supply expired => exact tallied
  | flag value => exact tallied
  | closeOffset taken closed =>
    obtain ⟨_, _, _, inside, _, _, _, _, _, _, rfl, rfl⟩ := PutBucket.closeOffset_ok closed
    rw [size_perm taken, size_cons] at tallied
    simp only [size_cons, Range.size] at tallied ⊢
    omega
  | destroy taken empty =>
    rw [size_perm taken, size_cons, Range.size] at tallied
    omega
  | writeSpread _ wrote =>
    obtain ⟨_, _, _, _, _, _, _, rfl, _, rfl⟩ := PutBucket.writeSpread_ok wrote
    simp only [size_cons, Range.size]
    omega
  | exerciseSpread _ exercised =>
    obtain ⟨_, _, _, _, _, _, _, _, _, _, _, _, _, _, _, _, _, _, _, _, _, _, _, rfl⟩ :=
      PutBucket.exerciseSpread_ok.mp exercised
    exact tallied
  | closeSpread taken closed =>
    obtain ⟨_, _, _, _, _, _, rfl⟩ := PutBucket.closeSpread_ok closed
    rw [size_perm taken, size_cons] at tallied
    simp only [PutBucket.closedQueue, Queue.removeSpread]
    omega
  | redeemSpread taken redeemed =>
    obtain ⟨_, _, _, _, rfl⟩ := PutBucket.redeemSpreadPosition_ok redeemed
    rw [size_perm taken, size_cons] at tallied
    simp only [Queue.removeSpread]
    omega

end Tally

section Idle

/-- The plain units that are neither exercised nor retired. -/
def PutBucket.idle (b : PutBucket ι) : Nat := b.totalWritten - (b.totalRedeemed + size b.spreads + b.underlyingBalance)

/-- Retired, escrowed, exercised and idle units are all units. -/
def PutBucket.Balanced (b : PutBucket ι) : Prop :=
  b.totalRedeemed + size b.spreads + b.underlyingBalance ≤ b.totalWritten

theorem PutBucket.Held.balanced {now : Nat} {b : PutBucket ι} {live retired : List Range} (held : b.Held now live retired)
    (tallied : b.Tallied live) : b.Balanced := by
  obtain ⟨plain, parts, backed⟩ := held
  have passed := within_le_size plain 0 b.exerciseCursor
  unfold PutBucket.Tallied at tallied
  rw [size_perm parts, size_append] at tallied
  unfold PutBucket.Balanced
  rw [backed.underlying]
  omega

/-- The cash exceeds the strike value of the idle units by at most so many settlement units. -/
def PutBucket.Dusty (b : PutBucket ι) (count : Nat) : Prop :=
  10 ^ b.strikeScale * b.settlementBalance ≤ b.strike * b.idle + 10 ^ b.strikeScale * count

namespace PutBucket.Dusty

variable {b next : PutBucket ι} {count units : Nat}

theorem still (dusty : b.Dusty count) (terms : next.terms = b.terms) (cash : next.settlementBalance = b.settlementBalance)
    (idle : next.idle = b.idle) : next.Dusty count := by
  obtain ⟨_, strike, scale⟩ := Terms.mk.inj terms
  unfold Dusty
  rw [strike, scale, cash, idle]
  exact dusty

theorem posted {cost : Nat} (dusty : b.Dusty count) (terms : next.terms = b.terms)
    (priced : applyStrikeCeil units b.strike b.strikeScale = .ok cost)
    (cash : next.settlementBalance = b.settlementBalance + cost) (idle : next.idle = b.idle + units) :
    next.Dusty (count + 1) := by
  obtain ⟨_, strike, scale⟩ := Terms.mk.inj terms
  have rounded := applyStrikeCeil_lt priced
  unfold Dusty at dusty ⊢
  rw [strike, scale, cash, idle, Nat.mul_add, Nat.mul_add, Nat.mul_add, Nat.mul_one, Nat.mul_comm b.strike units]
  omega

theorem paid {paid : Nat} (dusty : b.Dusty count) (terms : next.terms = b.terms)
    (priced : applyStrikeFloor units b.strike b.strikeScale = .ok paid)
    (cash : next.settlementBalance = b.settlementBalance - paid) (idle : b.idle = next.idle + units) :
    next.Dusty (count + 1) := by
  obtain ⟨_, strike, scale⟩ := Terms.mk.inj terms
  have rounded := lt_applyStrikeFloor priced
  have positive : 0 < 10 ^ b.strikeScale := by positivity
  unfold Dusty at dusty ⊢
  rw [idle, Nat.mul_add, Nat.mul_comm b.strike units] at dusty
  rw [strike, scale, cash, Nat.mul_sub, Nat.mul_add, Nat.mul_one]
  omega

theorem exercise {now amount delivery payout : Nat} (dusty : b.Dusty count)
    (ran : b.exercise now amount delivery = .ok (payout, next)) (after : next.Balanced) : next.Dusty (count + 1) := by
  obtain ⟨spreads, _, written, _⟩ := exercise_frame ran
  have terms := exercise_terms ran
  obtain ⟨_, _, _, _, _, _, _, _, priced, _, rfl⟩ := exercise_ok.mp ran
  refine dusty.paid terms priced rfl ?_
  unfold Balanced at after
  simp only [idle] at spreads written after ⊢
  rw [spreads, written] at after ⊢
  omega

theorem write {now collateral amount : Nat} {range : Range} (dusty : b.Dusty count) (before : b.Balanced)
    (ran : b.writeAndCheck now collateral amount = .ok (range, next)) : next.Dusty (count + 1) := by
  obtain ⟨_, _, priced, _, _, _, rfl⟩ := writeAndCheck_ok.mp ran
  unfold Balanced at before
  refine dusty.posted rfl priced rfl ?_
  simp only [idle]
  omega

theorem writeSpread {now amount topUp : Nat} {allowed : Bool} {j : ι} {long : PutBucket ι} {range : Range}
    (dusty : b.Dusty count) (ran : b.writeSpread now allowed j long amount topUp = .ok (range, next)) :
    next.Dusty count := by
  obtain ⟨_, _, _, _, _, _, _, _, _, rfl⟩ := writeSpread_ok ran
  refine dusty.still rfl rfl ?_
  simp only [idle, size_append, size_cons, size_nil, Range.size]
  omega

section Positions

variable [DecidableEq ι]

theorem redeem {now : Nat} {i : ι} {p : Position ι} (dusty : b.Dusty count) (ran : b.redeemPosition now i p = .ok next)
    (after : next.Balanced) : next.Dusty (count + 1) := by
  obtain ⟨_, _, _, owed, priced, held, _, rfl⟩ := redeemPosition_ok ran
  unfold Balanced at after
  simp only at after
  refine dusty.paid rfl priced rfl ?_
  have part := exercisedUnits_le b.exerciseCursor p.range
  simp only [idle]
  omega

theorem closeOffset {now amount : Nat} {i : ι} {p q : Position ι} (dusty : b.Dusty count)
    (ran : b.closeOffset now i p amount = .ok (q, next)) (after : next.Balanced) : next.Dusty (count + 1) := by
  obtain ⟨_, _, _, _, _, _, _, refund, priced, _, _, rfl⟩ := closeOffset_ok ran
  unfold Balanced at after
  simp only at after
  refine dusty.paid rfl priced rfl ?_
  simp only [idle]
  omega

theorem closeSpread {now amount : Nat} {i : ι} {p : Position ι} {escrow : SpreadEscrow ι} (dusty : b.Dusty count)
    (sorted : Ordered b.spreads) (ran : b.closeSpread now i p amount = .ok (escrow, next)) : next.Dusty count := by
  obtain ⟨_, _, member, _, _, _, rfl⟩ := closeSpread_ok ran
  have split := size_perm (eraseP_start sorted member)
  rw [size_cons] at split
  refine dusty.still rfl rfl ?_
  simp only [idle, closedQueue, Queue.removeSpread]
  omega

theorem redeemSpread {now : Nat} {i : ι} {p : Position ι} {escrow : SpreadEscrow ι} (dusty : b.Dusty count)
    (sorted : Ordered b.spreads) (ran : b.redeemSpreadPosition now i p = .ok (escrow, next)) : next.Dusty count := by
  obtain ⟨_, _, member, _, rfl⟩ := redeemSpreadPosition_ok ran
  have split := size_perm (eraseP_start sorted member)
  rw [size_cons] at split
  refine dusty.still rfl rfl ?_
  simp only [idle, Queue.removeSpread]
  omega

end Positions

theorem mono (dusty : b.Dusty count) (more : Nat) : b.Dusty (count + more) := by
  unfold Dusty at dusty ⊢
  rw [Nat.mul_add]
  omega

end PutBucket.Dusty

end Idle

section Runs

variable [DecidableEq ι]

/-- The operations that move cash of a bucket's pool: its writes, closes and redemptions, and the
exercises of its puts, also of those that back a spread of another bucket. -/
def PutOp.settles (k : ι) : PutOp ι → Bool
  | .write i _ _ => i = k
  | .exercise i _ _ => i = k
  | .redeemPosition i _ => i = k
  | .closeOffset i _ _ => i = k
  | .exerciseSpread _ j _ _ => j = k
  | _ => false

variable {s next : PutSystem ι} {op : PutOp ι} {k : ι} {count : Nat}

/-- An operation that settles adds at most one unit of dust, any other none. -/
theorem PutMove.dusty (moved : PutMove s op next) (dusty : (s.buckets k).Dusty count)
    (sorted : Ordered (s.buckets k).spreads) (before : (s.buckets k).Balanced) (after : (next.buckets k).Balanced) :
    (next.buckets k).Dusty (count + if op.settles k then 1 else 0) := by
  have own : ∀ {i : ι} {b : PutBucket ι}, next.buckets = Function.update s.buckets i b →
      (k = i → b = next.buckets k → b.Dusty (count + if op.settles k then 1 else 0)) →
        (next.buckets k).Dusty (count + if op.settles k then 1 else 0) := by
    intro i b updated here
    by_cases same : k = i
    · subst same
      have reached : next.buckets k = b := by rw [updated, Function.update_self]
      rw [reached]
      exact here rfl reached.symm
    · rw [updated, Function.update_of_ne same]
      exact dusty.mono _
  have settled : op.settles k = true → ∀ {b : PutBucket ι}, b.Dusty (count + 1) →
      b.Dusty (count + if op.settles k then 1 else 0) := by
    intro settles b more
    rwa [if_pos settles]
  cases moved with
  | tick later => exact dusty.mono _
  | write wrote =>
    refine own rfl ?_
    rintro rfl -
    exact settled (by simp [PutOp.settles]) (dusty.write before wrote)
  | exercise _ exercised =>
    refine own rfl ?_
    rintro rfl reached
    exact settled (by simp [PutOp.settles]) (dusty.exercise exercised (reached ▸ after))
  | redeem _ redeemed =>
    refine own rfl ?_
    rintro rfl reached
    exact settled (by simp [PutOp.settles]) (dusty.redeem redeemed (reached ▸ after))
  | burn _ _ | invalidate _ | revalidate _ =>
    refine own rfl ?_
    rintro rfl -
    exact (dusty.still rfl rfl rfl).mono _
  | closeOffset _ _ closed =>
    refine own rfl ?_
    rintro rfl reached
    exact settled (by simp [PutOp.settles]) (dusty.closeOffset closed (reached ▸ after))
  | destroy _ _ => exact dusty.mono _
  | writeSpread _ _ wrote =>
    refine own rfl ?_
    rintro rfl -
    exact (dusty.writeSpread wrote).mono _
  | @exerciseSpread i j amount delivery payout b long different _ exercised =>
    obtain ⟨_, _, _, _, _, _, _, _, _, _, _, _, _, _, _, _, _, _, _, _, inner, _, _, shortNext⟩ :=
      PutBucket.exerciseSpread_ok.mp exercised
    by_cases second : k = j
    · subst second
      simp only [System.retire, System.setBucket, Function.update_self] at after ⊢
      exact settled (by simp [PutOp.settles]) (dusty.exercise inner after)
    · by_cases first : k = i
      · subst first
        simp only [System.retire, System.setBucket, Function.update_of_ne second, Function.update_self]
        rw [shortNext]
        exact (dusty.still rfl rfl rfl).mono _
      · simp only [System.retire, System.setBucket, Function.update_of_ne second, Function.update_of_ne first]
        exact dusty.mono _
  | closeSpread _ _ closed =>
    refine own rfl ?_
    rintro rfl -
    exact (dusty.closeSpread sorted closed).mono _
  | redeemSpread _ redeemed =>
    refine own rfl ?_
    rintro rfl -
    exact (dusty.redeemSpread sorted redeemed).mono _

/-- All that a run says about the dust of a bucket. -/
structure PutSystem.Swept (terms : ι → Terms) (s : PutSystem ι) (k : ι) (count : Nat) : Prop where
  held : s.Held terms
  tallied : (s.buckets k).Tallied (s.ranges k)
  dusty : (s.buckets k).Dusty count

theorem PutSystem.Swept.step {terms : ι → Terms} (swept : s.Swept terms k count) (stepped : putStep s op = .ok next) :
    next.Swept terms k (count + if op.settles k then 1 else 0) := by
  have moved := putStep_move stepped
  have held := swept.held.step stepped
  have tallied := (moved.change k).tallied swept.tallied
  obtain ⟨_, _, backed⟩ := swept.held.bucket k
  refine ⟨held, tallied, moved.dusty swept.dusty backed.sound.spreadsOrdered ?_ ?_⟩
  · exact (swept.held.bucket k).balanced swept.tallied
  · exact (held.bucket k).balanced tallied

theorem PutSystem.Swept.run {terms : ι → Terms} {ops : List (PutOp ι)} (swept : s.Swept terms k count)
    (ran : exec putStep s ops = .ok next) : next.Swept terms k (count + ops.countP (PutOp.settles k)) := by
  induction ops generalizing s count with
  | nil =>
    cases ran
    exact swept
  | cons op rest ih =>
    obtain ⟨middle, stepped, tail⟩ := (exec_cons_ok putStep).mp ran
    have later := ih (swept.step stepped) tail
    rw [List.countP_cons, Nat.add_comm (rest.countP _), ← Nat.add_assoc]
    exact later

/-- The cleanup of a put bucket: the counter tells when its positions are gone, and then the
bucket can be cleaned up, with no more dust than the given number of operations. -/
structure PutBucket.CleansUp (now : Nat) (b : PutBucket ι) (live : List Range) (operations : Nat) : Prop where
  redeemed_iff : b.totalRedeemed = b.totalWritten ↔ ∀ r ∈ live, ¬ r.start < r.stop
  drained : (∀ r ∈ live, ¬ r.start < r.stop) → b.underlyingBalance = 0 ∧ b.spreads = [] ∧
    b.cleanupBucket now = .ok b.settlementBalance ∧ b.settlementBalance ≤ operations

/-- Every expired put bucket can be cleaned up once its positions are retired, and the swept
dust is at most one settlement unit for each of its writes, exercises, closes and redemptions. -/
theorem put_cleanup {now : Nat} {terms : ι → Terms} {ops : List (PutOp ι)}
    (ran : exec putStep (PutSystem.create now terms) ops = .ok s) (expired : (s.buckets k).expiryMs ≤ s.now) :
    (s.buckets k).CleansUp s.now (s.ranges k) (ops.countP (PutOp.settles k)) := by
  have fresh : (PutSystem.create now terms).Swept terms k 0 :=
    ⟨PutSystem.Held.create now terms, rfl, by simp [PutBucket.Dusty, PutSystem.create, PutBucket.create, Bucket.create]⟩
  have swept := fresh.run ran
  rw [Nat.zero_add] at swept
  have tallied := swept.tallied
  have dusty := swept.dusty
  obtain ⟨plain, parts, backed⟩ := swept.held.bucket k
  unfold PutBucket.Tallied at tallied
  simp only [PutBucket.Dusty] at dusty
  have iff : (s.buckets k).totalRedeemed = (s.buckets k).totalWritten ↔ ∀ r ∈ s.ranges k, ¬ r.start < r.stop := by
    simp only [Nat.not_lt, ← size_eq_zero]
    omega
  refine ⟨iff, fun retired => ?_⟩
  obtain ⟨spreads, nothing⟩ := retired_nothing (fun r member => Nat.not_lt.mp (retired r member)) parts
    backed.sound.spreadsOrdered
  have underlying : (s.buckets k).underlyingBalance = 0 := by rw [backed.underlying, nothing]
  have redeemed := iff.mpr retired
  refine ⟨underlying, spreads, ?_, ?_⟩
  · rw [PutBucket.cleanupBucket, check_of expired, check_of spreads, check_of redeemed, check_of underlying]
    rfl
  · have idle : (s.buckets k).idle = 0 := by
      rw [PutBucket.idle, redeemed]
      omega
    rw [idle, Nat.mul_zero, Nat.zero_add] at dusty
    exact Nat.le_of_mul_le_mul_left dusty (by positivity)

-- Three writes of one unit at a price of 2.5 post 3 each; exercises and redemptions pay 2 each.
theorem put_cleanup_sample :
    ∃ s, exec putStep (PutSystem.create 0 (fun _ : Unit => ⟨100, 25, 1⟩))
        [.write () 3 1, .write () 3 1, .write () 3 1, .exercise () 1 1, .closeOffset () ⟨(), ⟨2, 3⟩⟩ 1, .tick 100,
          .redeemPosition () ⟨(), ⟨0, 1⟩⟩, .redeemPosition () ⟨(), ⟨1, 2⟩⟩] = .ok s ∧
      (s.buckets ()).cleanupBucket s.now = .ok 3 ∧ (s.buckets ()).CleansUp s.now (s.ranges ()) 7 :=
  exists_ok (fun s => decide ((s.buckets ()).expiryMs ≤ s.now ∧ (s.buckets ()).cleanupBucket s.now = .ok 3)) rfl
    (fun _ ran passed => ⟨(of_decide_eq_true passed).2, put_cleanup ran (of_decide_eq_true passed).1⟩)

end Runs

end SuiOptions.Core
