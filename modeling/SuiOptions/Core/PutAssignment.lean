import SuiOptions.Core.PutBacking

/-! When the long leg of a put spread can be exercised.

`exercise_spread` exercises the escrowed longs through the plain path of their
bucket, which stops at the spreads of that bucket. Those have to be exercised
first, through the buckets that back them in turn. After careful transactions
this ends: every spread at a cursor can be exercised by finitely many calls that
anyone may make. Buckets that back the spreads at each other's cursors are
blocked, and no such call moves them again.
-/

set_option autoImplicit false

namespace SuiOptions.Core

open Execution Move Ranges Acyclic Relation

variable {ι : Type} [DecidableEq ι]

/-- The calls that need no position and no capability: writing and exercising. Writing asks the
launch gate, which is not part of `PutSystem`. -/
def PutOp.Permissionless : PutOp ι → Prop
  | .write _ _ _ => True
  | .exercise _ _ _ => True
  | .burnExpiredOption _ _ => True
  | .writeSpread _ _ _ _ _ => True
  | .exerciseSpread _ _ _ _ => True
  | _ => False

/-- Wherever the cursor of a live bucket stands on a spread, such calls lead to a state in which
one unit of that spread is exercised. -/
def PutSystem.Assignable (s : PutSystem ι) : Prop :=
  ∀ i r escrow, s.now < (s.buckets i).expiryMs → r ∈ (s.buckets i).spreads → r.Has (s.buckets i).exerciseCursor →
    (s.buckets i).escrows r.start = some escrow →
    ∃ ops ready next, (∀ op ∈ ops, op.Permissionless) ∧ exec putStep s ops = .ok ready ∧
      r ∈ (ready.buckets i).spreads ∧ r.Has (ready.buckets i).exerciseCursor ∧
      putStep ready (.exerciseSpread i escrow.longBucketId 1 1) = .ok next

section Clearing

variable [Fintype ι] {now : Nat} {terms : ι → Terms} {rank : ι → Nat} {s next : PutSystem ι} {i j : ι}

/-- A reachable state of tidy buckets that lean only on buckets of lower rank. -/
structure Calm (now : Nat) (terms : ι → Terms) (rank : ι → Nat) (s : PutSystem ι) : Prop where
  reached : Reaches putStep (PutSystem.create now terms) s
  ranked : ∀ i j, s.LeansOn i j → rank j < rank i
  tidy : ∀ i, (s.buckets i).Tidy s.now

omit [Fintype ι] in
theorem Calm.held (calm : Calm now terms rank s) : s.Held terms := by
  obtain ⟨ops, ran⟩ := calm.reached
  exact PutSystem.held_of_run ran

omit [Fintype ι] in
theorem Calm.admitted (calm : Calm now terms rank s) (i : ι) : (s.buckets i).Admitted terms i := by
  obtain ⟨ops, ran⟩ := calm.reached
  exact PutSystem.admitted_of_run ran i

/-- The bucket that backs a spread at the cursor is live, has coins and a lower rank. -/
theorem Calm.backer (calm : Calm now terms rank s) {r : Range} {escrow : SpreadEscrow ι}
    (live : s.now < (s.buckets i).expiryMs) (member : r ∈ (s.buckets i).spreads)
    (here : r.Has (s.buckets i).exerciseCursor) (listed : (s.buckets i).escrows r.start = some escrow) :
    s.now < (s.buckets escrow.longBucketId).expiryMs ∧ 0 < (s.buckets escrow.longBucketId).supply ∧
      rank escrow.longBucketId < rank i := by
  obtain ⟨ops, ran⟩ := calm.reached
  have held := calm.held
  obtain ⟨plain, _, backed⟩ := held.bucket i
  obtain ⟨_, found, long⟩ := backed.escrowed.held r member
  cases listed.symm.trans found
  have positive : 0 < escrow.long := by
    obtain ⟨low, high⟩ := here
    simp only [unassigned, assignedEnd] at long
    split_ifs at long <;> omega
  have later := (calm.admitted i).later _ _ listed
  have own := congrArg Terms.expiryMs (held.terms i)
  have other := congrArg Terms.expiryMs (held.terms escrow.longBucketId)
  simp only [Bucket.terms] at own other
  have coins := (PutSystem.conserved_of_run ran).long_le (j := i) member listed
  refine ⟨by omega, lt_of_lt_of_le positive coins, ?_⟩
  exact calm.ranked i _ ⟨r.start, escrow, listed, positive, rfl⟩

def PutBucket.grown (b : PutBucket ι) (cost : Nat) : PutBucket ι :=
  { b with settlementBalance := b.settlementBalance + cost
           totalWritten := b.totalWritten + 1
           supply := b.supply + 1 }

omit [Fintype ι] in
/-- A bucket with unassigned spread units can still be written to. -/
theorem Calm.write_one (calm : Calm now terms rank s) (valid : (terms i).Valid)
    (live : s.now < (s.buckets i).expiryMs) {r : Range} (member : r ∈ (s.buckets i).spreads)
    (ahead : (s.buckets i).exerciseCursor < r.stop) :
    ∃ cost next, putStep s (.write i cost 1) = .ok next ∧ next.now = s.now ∧ 1 ≤ next.wallets i ∧
      next.buckets = Function.update s.buckets i ((s.buckets i).grown cost) := by
  have tidy := calm.tidy i
  have known := calm.held.terms i
  have open' : (s.buckets i).invalidated = false := by
    cases flag : (s.buckets i).invalidated with
    | false => rfl
    | true =>
      have := tidy.valid flag r member
      omega
  obtain ⟨cost, priced⟩ := applyStrikeCeil_one valid.strike valid.scale
  rw [← known] at priced
  have total := tidy.total
  have wrote := PutBucket.writeAndCheck_ok.mpr
    ⟨live, open', priced, (by omega : (s.buckets i).totalWritten + 1 < u128Bound), tidy.supply, rfl, rfl⟩
  refine ⟨cost, _, bind_ok.mpr ⟨_, wrote, rfl⟩, rfl, ?_, rfl⟩
  simp [System.pay, System.addPosition, System.setBucket]

omit [Fintype ι] in
theorem Calm.ranked_step (ranked : ∀ i j, s.LeansOn i j → rank j < rank i) {op : PutOp ι}
    (stepped : putStep s op = .ok next)
    (other : ∀ allowed i j amount topUp, op ≠ .writeSpread allowed i j amount topUp) :
    ∀ i j, next.LeansOn i j → rank j < rank i := by
  intro i j leans
  rcases (putStep_move stepped).leans leans with old | ⟨allowed, amount, topUp, same⟩
  · exact ranked i j old
  · exact absurd same (other allowed i j amount topUp)

omit [Fintype ι] in
/-- With a coin written for it, one unit of the spread at the cursor is exercised
where the long leg is ready. -/
theorem Calm.assign_one (calm : Calm now terms rank s) (valid : (terms i).Valid)
    (live : s.now < (s.buckets i).expiryMs) {r : Range} {escrow : SpreadEscrow ι}
    (member : r ∈ (s.buckets i).spreads) (here : r.Has (s.buckets i).exerciseCursor)
    (listed : (s.buckets i).escrows r.start = some escrow)
    (ready : ∃ proceeds long, (s.buckets escrow.longBucketId).exercise s.now 1 1 = .ok (proceeds, long)) :
    ∃ cost middle next b long payout proceeds, putStep s (.write i cost 1) = .ok middle ∧
      middle.now = s.now ∧ putStep middle (.exerciseSpread i escrow.longBucketId 1 1) = .ok next ∧
      next.now = s.now ∧ next.buckets = Function.update (Function.update s.buckets i b) escrow.longBucketId long ∧
      (s.buckets escrow.longBucketId).exercise s.now 1 1 = .ok (proceeds, long) ∧
      (middle.buckets i).exerciseSpread s.now escrow.longBucketId (s.buckets escrow.longBucketId) 1 1 =
        .ok (payout, b, long) ∧
      middle.buckets i = (s.buckets i).grown cost := by
  have different := (calm.admitted i).other _ _ listed
  obtain ⟨proceeds, long, exercised⟩ := ready
  obtain ⟨cost, middle, wrote, time, coin, buckets⟩ := calm.write_one valid live member here.2
  have own : middle.buckets i = (s.buckets i).grown cost := by rw [buckets, Function.update_self]
  have other : middle.buckets escrow.longBucketId = s.buckets escrow.longBucketId := by
    rw [buckets, Function.update_of_ne (Ne.symm different)]
  have held := calm.held.step wrote
  have admitted : (middle.buckets i).Admitted terms i :=
    ((putStep_move wrote).change i).admitted calm.held.terms (calm.admitted i)
  obtain ⟨plain, _, backed⟩ := held.bucket i
  obtain ⟨payout, b, done⟩ := backed.exerciseSpread_one (s := r) admitted (held.terms i)
    (by rw [own, time]; exact live) (by rw [own]; exact Nat.succ_pos _) (by rw [own]; exact member)
    (by rw [own]; exact here) (show _ = some escrow by rw [own]; exact listed)
    (show (s.buckets escrow.longBucketId).exercise middle.now 1 1 = .ok (proceeds, long) by rw [time]; exact exercised)
  obtain ⟨next, stepped, later, after⟩ :=
    putStep_exerciseSpread different coin (by rw [other]; exact done)
  refine ⟨cost, middle, next, b, long, payout, proceeds, wrote, time, stepped, by rw [later, time], ?_, exercised,
    by rw [← time]; exact done, own⟩
  rw [after, buckets, Function.update_idem]

omit [DecidableEq ι] [Fintype ι] in
/-- A cursor that stands on a spread and moves on has fewer spread units ahead, also
where a unit is written that is no spread's. -/
theorem Sound.passed_unit {q : Queue} {others : List Range} (sound : Sound q others) {r : Range}
    (member : r ∈ q.spreads) (here : r.Has q.exerciseCursor) {later : Nat} (moved : q.exerciseCursor + 1 ≤ later) :
    within q.spreads later (q.totalWritten + 1) + 1 ≤ within q.spreads q.exerciseCursor q.totalWritten := by
  obtain ⟨low, high⟩ := here
  have limit := sound.spread_stop_le member
  have behind := within_anti q.spreads moved (q.totalWritten + 1)
  have split := within_split q.spreads (Nat.le_succ q.exerciseCursor)
    (by omega : q.exerciseCursor.succ ≤ q.totalWritten + 1)
  have whole := within_split q.spreads sound.cursorBound (Nat.le_succ q.totalWritten)
  have unwritten : within q.spreads q.totalWritten q.totalWritten.succ = 0 :=
    within_eq_zero (fun point first _ => (sound.unwritten first).2.1)
  have one : r.within q.exerciseCursor q.exerciseCursor.succ = 1 := by
    simp only [Range.within]
    omega
  have part := within_le_of_mem member q.exerciseCursor q.exerciseCursor.succ
  simp only [Nat.succ_eq_add_one] at *
  omega

omit [Fintype ι] in
/-- A spread unit at the cursor of a calm system is passed, and the system stays calm. -/
theorem Calm.pass_one (calm : Calm now terms rank s) (valid : (terms i).Valid)
    (live : s.now < (s.buckets i).expiryMs) {r : Range} {escrow : SpreadEscrow ι}
    (member : r ∈ (s.buckets i).spreads) (here : r.Has (s.buckets i).exerciseCursor)
    (listed : (s.buckets i).escrows r.start = some escrow)
    (ready : ∃ proceeds long, (s.buckets escrow.longBucketId).exercise s.now 1 1 = .ok (proceeds, long)) :
    ∃ cost next, exec putStep s [.write i cost 1, .exerciseSpread i escrow.longBucketId 1 1] = .ok next ∧
      Calm now terms rank next ∧ next.now = s.now ∧
      (∀ k, k ≠ i → k ≠ escrow.longBucketId → next.buckets k = s.buckets k) ∧
      (next.buckets i).expiryMs = (s.buckets i).expiryMs ∧ (next.buckets i).supply = (s.buckets i).supply ∧
      within (next.buckets i).spreads (next.buckets i).exerciseCursor (next.buckets i).totalWritten <
        within (s.buckets i).spreads (s.buckets i).exerciseCursor (s.buckets i).totalWritten := by
  have different := (calm.admitted i).other _ _ listed
  obtain ⟨cost, middle, next, b, long, payout, proceeds, wrote, time, stepped, later, after, exercised, assigned,
    grown⟩ := calm.assign_one valid live member here listed ready
  have held := calm.held.step wrote
  obtain ⟨_, _, backed⟩ := calm.held.bucket i
  obtain ⟨_, _, backing⟩ := calm.held.bucket escrow.longBucketId
  obtain ⟨_, _, written⟩ := held.bucket i
  rw [time] at written
  obtain ⟨flushed, forward⟩ := written.exerciseSpread_flushed assigned
  obtain ⟨spreads, total, flag, _, supply⟩ := PutBucket.exerciseSpread_frame assigned
  have terms' : b.terms = (middle.buckets i).terms := by
    obtain ⟨_, _, _, _, _, _, _, _, _, _, _, _, _, _, _, _, _, _, _, _, _, _, _, rfl⟩ :=
      PutBucket.exerciseSpread_ok.mp assigned
    rfl
  rw [grown] at spreads total flag supply forward terms'
  have units : b.totalWritten = (s.buckets i).totalWritten + 1 := total
  have own : next.buckets i = b := by
    rw [after, Function.update_of_ne different, Function.update_self]
  -- One unit of the spread is behind the cursor now, and the unit written is not a spread's.
  have passed : within b.spreads b.exerciseCursor b.totalWritten + 1 ≤
      within (s.buckets i).spreads (s.buckets i).exerciseCursor (s.buckets i).totalWritten := by
    rw [spreads, units]
    exact backed.sound.passed_unit member here forward
  have tidy := calm.tidy i
  refine ⟨cost, next, (exec_cons_ok putStep).mpr ⟨middle, wrote, (exec_cons_ok putStep).mpr ⟨next, stepped, rfl⟩⟩,
    ⟨(calm.reached.snoc wrote).snoc stepped, ?_, ?_⟩, later, ?_, ?_, ?_, ?_⟩
  · refine Calm.ranked_step (Calm.ranked_step calm.ranked wrote ?_) stepped ?_
    · intro _ _ _ _ _ same
      cases same
    · intro _ _ _ _ _ same
      cases same
  · intro k
    rw [later, after]
    refine tidy_update (tidy_update calm.tidy ?_) ((calm.tidy _).exercise backing exercised) k
    refine ⟨fun _ => Queue.not_wedged flushed, fun invalid => ?_, ?_, ?_⟩
    · rw [flag] at invalid
      have := tidy.valid invalid r member
      have := here.2
      omega
    · have := tidy.supply
      rw [supply]
      simp only [PutBucket.grown]
      omega
    · have := tidy.total
      omega
  · intro k first second
    rw [after, Function.update_of_ne second, Function.update_of_ne first]
  · rw [own]
    exact congrArg Terms.expiryMs terms'
  · rw [own, supply]
    simp only [PutBucket.grown]
    omega
  · rw [own]
    omega

/-- Calls that anyone may make lead from one state to another, at the same time, and
touch no bucket of a higher rank. -/
structure Cleared (rank : ι → Nat) (bound : Nat) (s next : PutSystem ι) : Prop where
  calls : ∃ ops : List (PutOp ι), (∀ op ∈ ops, op.Permissionless) ∧ exec putStep s ops = .ok next
  now : next.now = s.now
  above : ∀ k, bound < rank k → next.buckets k = s.buckets k

omit [Fintype ι] in
theorem Cleared.refl (rank : ι → Nat) (bound : Nat) (s : PutSystem ι) : Cleared rank bound s s :=
  ⟨⟨[], by simp, rfl⟩, rfl, fun _ _ => rfl⟩

omit [Fintype ι] in
theorem Cleared.trans {a b c : PutSystem ι} {bound : Nat} (first : Cleared rank bound a b)
    (second : Cleared rank bound b c) : Cleared rank bound a c := by
  obtain ⟨left, leftOnly, leftRan⟩ := first.calls
  obtain ⟨right, rightOnly, rightRan⟩ := second.calls
  refine ⟨⟨left ++ right, ?_, (exec_append_ok putStep).mpr ⟨b, leftRan, rightRan⟩⟩, second.now.trans first.now, ?_⟩
  · intro op member
    rcases List.mem_append.mp member with member | member
    · exact leftOnly op member
    · exact rightOnly op member
  · exact fun k high => (second.above k high).trans (first.above k high)

omit [Fintype ι] in
theorem Cleared.mono {bound more : Nat} (cleared : Cleared rank bound s next) (grown : bound ≤ more) :
    Cleared rank more s next :=
  ⟨cleared.calls, cleared.now, fun k high => cleared.above k (by omega)⟩

/-- Every live bucket of a calm system can be brought to a state in which one of its
units is exercised by the plain path. -/
theorem Calm.clear (valid : ∀ i, (terms i).Valid) (calm : Calm now terms rank s)
    (live : s.now < (s.buckets i).expiryMs) (supplied : 0 < (s.buckets i).supply) :
    ∃ next, Cleared rank (rank i) s next ∧ Calm now terms rank next ∧
      ∃ payout b, (next.buckets i).exercise next.now 1 1 = .ok (payout, b) := by
  -- First on the rank of the bucket, then on the spread units ahead of its cursor.
  induction placed : rank i using Nat.strong_induction_on generalizing i s with
  | _ level lower =>
    induction counted : within (s.buckets i).spreads (s.buckets i).exerciseCursor (s.buckets i).totalWritten
      using Nat.strong_induction_on generalizing s with
    | _ ahead fewer =>
      have held := calm.held
      obtain ⟨plain, _, backed⟩ := held.bucket i
      have outstanding := backed.supply live
      by_cases before :
          (s.buckets i).exerciseCursor < (s.buckets i).toQueue.nextSpreadStart (s.buckets i).exerciseCursor
      · have terms' : (s.buckets i).terms.Valid := by
          rw [held.terms]
          exact valid i
        obtain ⟨payout, b, exercised⟩ :=
          backed.exercise_one live terms' supplied ((calm.tidy i).free live) before
        exact ⟨s, Cleared.refl rank level s, calm, payout, b, exercised⟩
      · obtain ⟨r, member, here⟩ : ∃ r ∈ (s.buckets i).spreads, r.Has (s.buckets i).exerciseCursor :=
          Queue.on_spread before (by omega)
        obtain ⟨escrow, listed, _⟩ := backed.escrowed.held r member
        obtain ⟨longLive, longSupplied, down⟩ := calm.backer live member here listed
        obtain ⟨first, toFirst, calmFirst, ready⟩ := lower _ (placed ▸ down) calm longLive longSupplied rfl
        -- The bucket itself is of a higher rank than the one just cleared.
        have same := toFirst.above i down
        obtain ⟨cost, second, ran, calmSecond, time, others, expiry, supply, less⟩ :=
          calmFirst.pass_one (valid i) (by rw [same, toFirst.now]; exact live) (by rw [same]; exact member)
            (by rw [same]; exact here) (by rw [same]; exact listed) ready
        rw [same] at expiry supply less
        have toSecond : Cleared rank level first second := by
          refine ⟨⟨_, ?_, ran⟩, time, fun k high => others k ?_ ?_⟩
          · intro op member
            simp only [List.mem_cons, List.not_mem_nil, or_false] at member
            rcases member with rfl | rfl <;> trivial
          · rintro rfl
            omega
          · rintro rfl
            omega
        obtain ⟨next, toNext, calmNext, done⟩ := fewer _ (counted ▸ less) calmSecond
          (by rw [time, toFirst.now, expiry]; exact live) (by rw [supply]; exact supplied) rfl
        exact ⟨next, ((toFirst.mono (by omega)).trans toSecond).trans toNext, calmNext, done⟩

/-- In a reachable state that careful transactions led to, one unit of every spread at the
cursor of a live bucket can be exercised by calls that need no position and no capability. -/
theorem PutSystem.Clean.assignable (clean : s.Clean) (valid : ∀ i, (terms i).Valid)
    (reached : Reaches putStep (PutSystem.create now terms) s) : s.Assignable := by
  intro i r escrow live member here listed
  obtain ⟨rank, ranked⟩ := clean.acyclic.exists_rank
  have calm : Calm now terms rank s := ⟨reached, ranked, clean.tidy⟩
  obtain ⟨longLive, longSupplied, down⟩ := calm.backer live member here listed
  obtain ⟨first, toFirst, calmFirst, ready⟩ := calm.clear valid longLive longSupplied
  obtain ⟨calls, only, called⟩ := toFirst.calls
  have same := toFirst.above i down
  obtain ⟨cost, middle, next, _, _, _, _, wrote, _, stepped, _, _, _, _, grown⟩ :=
    calmFirst.assign_one (valid i) (by rw [same, toFirst.now]; exact live) (by rw [same]; exact member)
      (by rw [same]; exact here) (by rw [same]; exact listed) ready
  refine ⟨calls ++ [.write i cost 1], middle, next, ?_, ?_, ?_, ?_, stepped⟩
  · intro op listed
    rcases List.mem_append.mp listed with early | last
    · exact only op early
    · rw [List.mem_singleton.mp last]
      trivial
  · exact (exec_append_ok putStep).mpr ⟨first, called, (exec_cons_ok putStep).mpr ⟨middle, wrote, rfl⟩⟩
  · rw [grown, same]
    exact member
  · rw [grown, same]
    exact here

end Clearing

section Checking

end Checking

section Blocking

variable {terms : ι → Terms} {s next : PutSystem ι} {op : PutOp ι} {among : Set ι} {i j : ι}

/-- Every bucket among the given ones stands on a spread backed by one of them. -/
def PutSystem.Blocked (s : PutSystem ι) (among : Set ι) : Prop :=
  ∀ i ∈ among, ∃ r escrow, r ∈ (s.buckets i).spreads ∧ r.Has (s.buckets i).exerciseCursor ∧
    (s.buckets i).escrows r.start = some escrow ∧ escrow.longBucketId ∈ among

theorem PutSystem.Blocked.exercise (blocked : s.Blocked among) (held : s.Held terms) (member : i ∈ among)
    {amount delivery payout : Nat} {b : PutBucket ι} :
    (s.buckets i).exercise s.now amount delivery ≠ .ok (payout, b) := by
  intro ran
  obtain ⟨r, _, spread, here, _⟩ := blocked i member
  obtain ⟨_, _, backed⟩ := held.bucket i
  obtain ⟨_, positive, _, _, _, _, _, advanced, _⟩ := PutBucket.exercise_ok.mp ran
  obtain ⟨final, dropped, _, walked, _⟩ := Queue.advanceCursor_walked backed.sound.ready
    (Queue.nextSpreadStart_bounding backed.sound.spreadsOrdered) advanced
  have moved : final.cur = (s.buckets i).exerciseCursor + amount + size dropped := walked.cur_eq
  exact walked.clear r spread _ (le_refl _) (by simp only [Queue.walk]; omega) here

theorem PutSystem.Blocked.exerciseSpread (blocked : s.Blocked among) (held : s.Held terms)
    (member : i ∈ among ∨ j ∈ among) {amount delivery payout : Nat} {b long : PutBucket ι} :
    (s.buckets i).exerciseSpread s.now j (s.buckets j) amount delivery ≠ .ok (payout, b, long) := by
  intro ran
  obtain ⟨_, _, _, _, _, escrow, _, _, _, _, _, _, _, _, listed, backer, _, _, _, _, inner, _⟩ :=
    PutBucket.exerciseSpread_ok.mp ran
  have long : j ∈ among := by
    rcases member with short | long
    · obtain ⟨r, other, spread, here, found, inside⟩ := blocked i short
      obtain ⟨_, _, backed⟩ := held.bucket i
      rw [Queue.nextSpreadStart_of_has backed.sound.spreadsOrdered spread here] at listed
      cases found.symm.trans listed
      rw [← backer]
      exact inside
    · exact long
  exact blocked.exercise held long inner

theorem PutSystem.Blocked.keep (blocked : s.Blocked among) {b : PutBucket ι}
    (buckets : next.buckets = Function.update s.buckets i b)
    (kept : i ∈ among → b.exerciseCursor = (s.buckets i).exerciseCursor ∧
      ∀ r ∈ (s.buckets i).spreads, r ∈ b.spreads ∧ b.escrows r.start = (s.buckets i).escrows r.start) :
    next.Blocked among := by
  intro k member
  obtain ⟨r, escrow, spread, here, listed, inside⟩ := blocked k member
  rw [buckets]
  by_cases own : k = i
  · subst own
    obtain ⟨cursor, rest⟩ := kept member
    obtain ⟨still, same⟩ := rest r spread
    rw [Function.update_self]
    exact ⟨r, escrow, still, by rw [cursor]; exact here, by rw [same]; exact listed, inside⟩
  · rw [Function.update_of_ne own]
    exact ⟨r, escrow, spread, here, listed, inside⟩

theorem PutSystem.Blocked.step (blocked : s.Blocked among) (held : s.Held terms) (free : op.Permissionless)
    (stepped : putStep s op = .ok next) : next.Blocked among := by
  have moved := putStep_move stepped
  cases moved with
  | write wrote =>
    obtain ⟨_, _, _, _, _, _, rfl⟩ := PutBucket.writeAndCheck_ok.mp wrote
    refine blocked.keep rfl (fun _ => ?_)
    exact ⟨rfl, fun r spread => ⟨spread, rfl⟩⟩
  | exercise owned exercised =>
    exact blocked.keep rfl (fun member => absurd exercised (blocked.exercise held member))
  | burn owned expired =>
    refine blocked.keep rfl (fun _ => ?_)
    exact ⟨rfl, fun r spread => ⟨spread, rfl⟩⟩
  | @writeSpread allowed i j amount topUp range b different owned wrote =>
    obtain ⟨_, _, _, _, _, _, _, _, _, rfl⟩ := PutBucket.writeSpread_ok wrote
    obtain ⟨_, _, backed⟩ := held.bucket i
    refine blocked.keep rfl (fun _ => ?_)
    refine ⟨rfl, fun r spread => ⟨List.mem_append_left _ spread, ?_⟩⟩
    have proper := backed.sound.spreadsOrdered.nonempty r spread
    have limit := backed.sound.spread_stop_le spread
    exact Function.update_of_ne (by omega) _ _
  | @exerciseSpread i j amount delivery payout b long different owned exercised =>
    have first : PutSystem.Blocked (s.setBucket i b) among :=
      blocked.keep rfl (fun member => absurd exercised (blocked.exerciseSpread held (Or.inl member)))
    exact first.keep rfl (fun member => absurd exercised (blocked.exerciseSpread held (Or.inr member)))
  | _ => cases free

end Blocking

end SuiOptions.Core
