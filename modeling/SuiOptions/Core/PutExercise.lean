import SuiOptions.Core.PutInvariant

/-! When one unit of a put bucket can be exercised.

`exercise` stops at a spread and `exercise_spread` needs the cursor to stand on
one. A tombstone that begins at the cursor is skipped by `exercise` alone, and
only together with the units it then exercises: where a live spread begins
right behind that tombstone, both entry points refuse.
-/

set_option autoImplicit false

namespace SuiOptions.Core

open Execution Move Ranges

variable {ι : Type}

/-- A tombstone begins at the cursor and a live spread begins where it ends. -/
def Queue.Wedged (q : Queue) : Prop :=
  ∃ r ∈ q.closed, r.start = q.exerciseCursor ∧ ∃ s ∈ q.spreads, s.start = r.stop

/-- The economics `create_put_bucket_any_strike` accepts: a significand that fits
a machine word and a bounded scale. -/
structure Terms.Valid (terms : Terms) : Prop where
  strike : terms.strike < u64Bound
  scale : terms.strikeScale ≤ maxStrikeScale

section Queue

variable {q : Queue} {others : List Range} {cur : Nat} {s : Range}

theorem Queue.nextSpreadStart_stable (sorted : Ordered q.spreads) {later : Nat} (moved : cur ≤ later)
    (before : later < q.nextSpreadStart cur) : q.nextSpreadStart later = q.nextSpreadStart cur := by
  cases found : q.spreads.find? (fun s => cur < s.stop) with
  | none =>
    have passed : ∀ s ∈ q.spreads, s.stop ≤ cur := by
      intro s member
      simpa using List.find?_eq_none.mp found s member
    rw [Queue.nextSpreadStart_none passed, Queue.nextSpreadStart_none (fun s member => (passed s member).trans moved)]
  | some s =>
    rw [Queue.nextSpreadStart_some found] at before ⊢
    have proper := sorted.nonempty s (List.mem_of_find?_eq_some found)
    obtain ⟨_, first, last, listed, skipped⟩ := List.find?_eq_some_iff_append.mp found
    refine Queue.nextSpreadStart_some (List.find?_eq_some_iff_append.mpr ⟨?_, first, last, listed, ?_⟩)
    · simp only [decide_eq_true_eq]
      omega
    · intro r early
      have := skipped r early
      simp only [Bool.not_eq_eq_eq_not, Bool.not_true, decide_eq_false_iff_not, not_lt] at this ⊢
      omega

theorem Queue.nextSpreadStart_of_has (sorted : Ordered q.spreads) (member : s ∈ q.spreads) (has : s.Has cur) :
    q.nextSpreadStart cur = s.start := by
  cases found : q.spreads.find? (fun s => cur < s.stop) with
  | none =>
    have := List.find?_eq_none.mp found s member
    simp only [decide_eq_true_eq] at this
    exact absurd has.2 this
  | some r =>
    rw [Queue.nextSpreadStart_some found]
    rcases Queue.first_unpassed sorted found member has.2 with same | beyond
    · rw [same]
    · have ahead : cur < r.stop := by simpa using List.find?_some found
      have reached := has.1
      omega

theorem Sound.nextSpreadStart_le (sound : Sound q others) (cur : Nat) : q.nextSpreadStart cur ≤ q.totalWritten := by
  unfold Queue.nextSpreadStart
  split
  · next s found =>
    have member := List.mem_of_find?_eq_some found
    have proper := sound.spreadsOrdered.nonempty s member
    have bound := sound.spread_stop_le member
    omega
  · exact le_refl _

theorem Sound.closed_beside_next (sound : Sound q others) (cur : Nat) {r : Range} (member : r ∈ q.closed) :
    r.stop ≤ q.nextSpreadStart cur ∨ q.nextSpreadStart cur ≤ r.start := by
  unfold Queue.nextSpreadStart
  split
  · next s found =>
    have spread := List.mem_of_find?_eq_some found
    have proper := sound.spreadsOrdered.nonempty s spread
    have apart := sound.closed_spread member spread
    omega
  · exact Or.inl (sound.closed_stop_le member)

/-- Before the next spread there is a unit left to exercise, unless the queue is wedged or empty. -/
theorem Sound.room (sound : Sound q others) (free : ¬ q.Wedged)
    (capacity : q.exerciseCursor + 1 + q.closedPending ≤ q.totalWritten)
    (before : q.exerciseCursor < q.nextSpreadStart q.exerciseCursor) :
    1 + within q.closed q.exerciseCursor (q.nextSpreadStart q.exerciseCursor) ≤
      q.nextSpreadStart q.exerciseCursor - q.exerciseCursor := by
  by_contra full
  have whole := sound.closedSeparated.fill before sound.closedAhead
    (fun r member => sound.closed_beside_next q.exerciseCursor member) (by omega)
  cases found : q.spreads.find? (fun s => q.exerciseCursor < s.stop) with
  | none =>
    -- The tombstones would be all that is left of the queue.
    have total : q.nextSpreadStart q.exerciseCursor = q.totalWritten := by
      simp only [Queue.nextSpreadStart, found]
    have counted : within q.closed q.exerciseCursor q.totalWritten = q.closedPending := by
      rw [within_eq_size (fun r member => ⟨sound.closedAhead r member, sound.closed_stop_le member⟩), sound.closedSize]
    rw [total, counted] at full
    omega
  | some s =>
    rw [Queue.nextSpreadStart_some found] at whole
    exact free ⟨_, whole, rfl, s, List.mem_of_find?_eq_some found, rfl⟩

theorem Queue.on_spread (reached : ¬ q.exerciseCursor < q.nextSpreadStart q.exerciseCursor)
    (unwritten : q.exerciseCursor < q.totalWritten) : ∃ r ∈ q.spreads, r.Has q.exerciseCursor := by
  cases found : q.spreads.find? (fun r => q.exerciseCursor < r.stop) with
  | none =>
    simp only [Queue.nextSpreadStart, found] at reached
    omega
  | some r =>
    rw [Queue.nextSpreadStart_some found] at reached
    exact ⟨r, List.mem_of_find?_eq_some found, by omega, by simpa using List.find?_some found⟩

theorem Sound.not_walked (sound : Sound q others) (wedged : q.Wedged) {units : Nat} {final : Walk}
    {dropped : List Range} (positive : 0 < units) : ¬ Walked q.spreads units q.walk final dropped := by
  intro walked
  obtain ⟨r, closed, here, s, spread, begins⟩ := wedged
  have moved : final.cur = q.exerciseCursor + units + size dropped := walked.cur_eq
  have listed : r ∈ dropped ++ final.closed := by
    rw [← walked.closed_eq]
    exact closed
  have behind : r ∈ dropped := by
    rcases List.mem_append.mp listed with early | late
    · exact early
    · have ahead := walked.ready.ahead r late
      omega
  have inside : r.size ≤ size dropped := by
    rw [← within_eq_size (fun d member => ⟨Nat.zero_le _, (walked.inside d member).2⟩)]
    refine le_trans ?_ (within_le_of_mem behind 0 final.cur)
    have stop := (walked.inside r behind).2
    simp only [Range.size, Range.within]
    omega
  have proper := sound.spreadsOrdered.nonempty s spread
  have nonempty := sound.closedSeparated.nonempty r closed
  simp only [Range.size] at inside
  exact walked.clear s spread s.start (by simp only [Queue.walk]; omega) (by omega) ⟨le_refl _, proper⟩

end Queue

section Admission

variable [DecidableEq ι]

/-- A bucket whose spreads are as `write_spread` admits them: each is backed by
another bucket that expires no earlier, and its units can be priced. -/
structure PutBucket.Admitted (terms : ι → Terms) (i : ι) (b : PutBucket ι) : Prop where
  other : ∀ start escrow, b.escrows start = some escrow → i ≠ escrow.longBucketId
  later : ∀ start escrow, b.escrows start = some escrow →
    (terms i).expiryMs ≤ (terms escrow.longBucketId).expiryMs
  priced : ∀ s ∈ b.spreads, ∃ cost, applyStrikeCeil s.size (terms i).strike (terms i).strikeScale = .ok cost

variable {now : Nat} {terms : ι → Terms} {i : ι} {b next : PutBucket ι}

omit [DecidableEq ι] in
/-- Every escrow and spread there is afterwards was there before, up to the amounts held. -/
theorem PutBucket.Admitted.mono (admitted : b.Admitted terms i) (spreads : ∀ s ∈ next.spreads, s ∈ b.spreads)
    (escrows : ∀ start escrow, next.escrows start = some escrow →
      ∃ old, b.escrows start = some old ∧ old.longBucketId = escrow.longBucketId) : next.Admitted terms i where
  other := by
    intro start escrow found
    obtain ⟨old, before, same⟩ := escrows start escrow found
    rw [← same]
    exact admitted.other start old before
  later := by
    intro start escrow found
    obtain ⟨old, before, same⟩ := escrows start escrow found
    rw [← same]
    exact admitted.later start old before
  priced := fun s member => admitted.priced s (spreads s member)

omit [DecidableEq ι] in
theorem PutBucket.Admitted.same (admitted : b.Admitted terms i) (spreads : next.spreads = b.spreads)
    (escrows : next.escrows = b.escrows) : next.Admitted terms i :=
  admitted.mono (fun s member => by rwa [spreads] at member)
    (fun start escrow found => ⟨escrow, by rwa [escrows] at found, rfl⟩)

omit [DecidableEq ι] in
theorem PutBucket.Admitted.remove (admitted : b.Admitted terms i) {start : Nat}
    (spreads : next.spreads = b.spreads.eraseP (fun r => r.start == start))
    (escrows : next.escrows = Function.update b.escrows start none) : next.Admitted terms i := by
  refine admitted.mono (fun s member => ?_) (fun place escrow found => ⟨escrow, ?_, rfl⟩)
  · rw [spreads] at member
    exact List.mem_of_mem_eraseP member
  · rw [escrows] at found
    by_cases here : place = start
    · rw [here, Function.update_self] at found
      cases found
    · rwa [Function.update_of_ne here] at found

theorem PutChange.admitted {buckets : ι → PutBucket ι} {live retired after gone : List Range}
    (changed : PutChange now buckets i live retired next after gone) (known : ∀ i, (buckets i).terms = terms i)
    (admitted : (buckets i).Admitted terms i) : next.Admitted terms i := by
  cases changed with
  | idle same => exact admitted
  | write wrote =>
    obtain ⟨_, _, _, _, _, _, rfl⟩ := PutBucket.writeAndCheck_ok.mp wrote
    exact admitted.same rfl rfl
  | exercise exercised =>
    obtain ⟨spreads, escrows, _⟩ := PutBucket.exercise_frame exercised
    exact admitted.same spreads escrows
  | redeem taken redeemed =>
    obtain ⟨_, _, _, _, _, _, _, rfl⟩ := PutBucket.redeemPosition_ok redeemed
    exact admitted.same rfl rfl
  | burn supply expired => exact admitted.same rfl rfl
  | flag value => exact admitted.same rfl rfl
  | closeOffset taken closed =>
    obtain ⟨_, _, _, _, _, _, _, _, _, _, _, rfl⟩ := PutBucket.closeOffset_ok closed
    exact admitted.same rfl rfl
  | destroy taken empty => exact admitted
  | @writeSpread allowed j _ amount topUp _ different wrote =>
    obtain ⟨_, _, later, _, priced, _, _, _, _, rfl⟩ := PutBucket.writeSpread_ok wrote
    have own := known i
    have long := known j
    simp only [Bucket.terms] at own long
    -- The new escrow and the new spread come from the checks, the others were there.
    refine ⟨fun start escrow found => ?_, fun start escrow found => ?_, fun s member => ?_⟩
    · by_cases here : start = (buckets i).totalWritten
      · simp only [here, Function.update_self, Option.some.injEq] at found
        subst found
        exact different
      · simp only [Function.update_of_ne here] at found
        exact admitted.other start escrow found
    · by_cases here : start = (buckets i).totalWritten
      · simp only [here, Function.update_self, Option.some.injEq] at found
        subst found
        simp only [← own, ← long]
        exact later
      · simp only [Function.update_of_ne here] at found
        exact admitted.later start escrow found
    · rcases List.mem_append.mp member with old | new
      · exact admitted.priced s old
      · rw [List.mem_singleton.mp new]
        simp only [Range.size, Nat.add_sub_cancel_left, ← own]
        exact priced
  | exerciseSpread different exercised =>
    obtain ⟨_, _, _, _, _, escrow, _, _, _, _, _, _, _, _, held, _, _, _, _, _, _, _, _, rfl⟩ :=
      PutBucket.exerciseSpread_ok.mp exercised
    refine admitted.mono (fun s member => member) (fun start found listed => ?_)
    by_cases here : start = (buckets i).toQueue.nextSpreadStart (buckets i).exerciseCursor
    · simp only [here, Function.update_self, Option.some.injEq] at listed
      subst listed
      exact ⟨escrow, by rw [here]; exact held, rfl⟩
    · simp only [Function.update_of_ne here] at listed
      exact ⟨found, listed, rfl⟩
  | closeSpread taken closed =>
    obtain ⟨_, _, _, _, _, _, rfl⟩ := PutBucket.closeSpread_ok closed
    exact admitted.remove rfl rfl
  | redeemSpread taken redeemed =>
    obtain ⟨_, _, _, _, rfl⟩ := PutBucket.redeemSpreadPosition_ok redeemed
    exact admitted.remove rfl rfl

theorem PutSystem.admitted_of_run {ops : List (PutOp ι)} {s : PutSystem ι}
    (ran : exec putStep (PutSystem.create now terms) ops = .ok s) (i : ι) : (s.buckets i).Admitted terms i := by
  have both : s.Held terms ∧ ∀ i, (s.buckets i).Admitted terms i := by
    refine exec_invariant putStep (fun s => s.Held terms ∧ ∀ i, (s.buckets i).Admitted terms i) ?_ ?_ ran
    · rintro s op next ⟨held, admitted⟩ stepped
      exact ⟨held.step stepped, fun i => ((putStep_move stepped).change i).admitted held.terms (admitted i)⟩
    · exact ⟨PutSystem.Held.create now terms, fun i => ⟨by simp [PutSystem.create, PutBucket.create, Bucket.create],
        by simp [PutSystem.create, PutBucket.create, Bucket.create],
        by simp [PutSystem.create, PutBucket.create, Bucket.create]⟩⟩
  exact both.2 i

end Admission

section Exercising

namespace PutBucket.Backed

variable {now : Nat} {b long longNext : PutBucket ι} {plain retired : List Range}

/-- Before the next spread one unit can be exercised, unless the queue is wedged. -/
theorem exercise_one (backed : b.Backed now plain retired) (live : now < b.expiryMs) (valid : b.terms.Valid)
    (supplied : 0 < b.supply) (free : ¬ b.toQueue.Wedged)
    (before : b.exerciseCursor < b.toQueue.nextSpreadStart b.exerciseCursor) :
    ∃ payout next, b.exercise now 1 1 = .ok (payout, next) := by
  have outstanding := backed.supply live
  have sound := backed.sound
  have capacity : b.exerciseCursor + 1 + b.closedPending ≤ b.totalWritten := by omega
  obtain ⟨walked, advanced⟩ : ∃ walked,
      b.toQueue.advanceCursor b.toQueue.nextSpreadStart .putSpreadExerciseRequired 1 = .ok walked :=
    Queue.advanceCursor_succeeds sound.ready (Queue.nextSpreadStart_bounding sound.spreadsOrdered) sound.closedSize
      (sound.nextSpreadStart_le b.exerciseCursor)
      (fun cur moved reached => Queue.nextSpreadStart_stable sound.spreadsOrdered moved reached)
      (fun r member => sound.closed_beside_next b.exerciseCursor member) (fun _ => sound.room free capacity before)
  have strike : b.strike < u64Bound := valid.strike
  have payable : applyStrikeFloor 1 b.strike b.strikeScale = .ok (1 * b.strike / 10 ^ b.strikeScale) := by
    have part := Nat.div_le_self (1 * b.strike) (10 ^ b.strikeScale)
    refine applyStrikeFloor_ok.mpr ⟨valid.scale, ?_, ?_, rfl⟩
    · simp only [u64Bound, u128Bound] at strike ⊢
      omega
    · omega
  have funded := (backed.covers (backed.advanced_units live capacity advanced) payable).1
  have small := backed.bounded
  exact ⟨_, _, PutBucket.exercise_ok.mpr ⟨live, Nat.one_pos, rfl, by omega, capacity, supplied, walked, advanced,
    payable, funded, rfl⟩⟩

variable [DecidableEq ι] {terms : ι → Terms} {i : ι} {s : Range} {escrow : SpreadEscrow ι} {proceeds : Nat}

theorem exerciseSpread_one (backed : b.Backed now plain retired) (admitted : b.Admitted terms i)
    (known : b.terms = terms i) (live : now < b.expiryMs) (supplied : 0 < b.supply) (member : s ∈ b.spreads)
    (here : s.Has b.exerciseCursor) (listed : b.escrows s.start = some escrow)
    (ready : long.exercise now 1 1 = .ok (proceeds, longNext)) :
    ∃ payout next, b.exerciseSpread now escrow.longBucketId long 1 1 = .ok (payout, next, longNext) := by
  have sound := backed.sound
  have start := Queue.nextSpreadStart_of_has sound.spreadsOrdered member here
  have reached := here.1
  have inside := here.2
  have limit := sound.spread_stop_le member
  have small := backed.bounded
  obtain ⟨_, found, held⟩ := backed.escrowed.held s member
  cases listed.symm.trans found
  have longs : 1 ≤ escrow.long := by
    simp only [unassigned, assignedEnd] at held
    split_ifs at held <;> omega
  obtain ⟨cost, priced⟩ := admitted.priced s member
  rw [← known] at priced
  have size : b.exerciseCursor - s.start + 1 ≤ s.size := by
    simp only [Range.size]
    omega
  obtain ⟨high, ceilHigh, _⟩ := applyStrikeCeil_mono size priced
  obtain ⟨low, ceilLow, ordered⟩ := applyStrikeCeil_mono (Nat.le_succ (b.exerciseCursor - s.start)) ceilHigh
  obtain ⟨walk, flushed⟩ : ∃ walk, flush (b.exerciseCursor + 1) b.closed b.closedPending = .ok walk :=
    flush_succeeds sound.closedSeparated.nonempty sound.closedSize.le
  rw [← start] at reached listed ceilHigh ceilLow
  exact ⟨_, _, PutBucket.exerciseSpread_ok.mpr ⟨live, Nat.one_pos, rfl, reached, s, escrow, high, low, proceeds, walk,
    by rw [start]; exact Queue.findSpread_of sound.spreadsOrdered member, by omega, by omega, supplied, listed, rfl,
    longs, ceilHigh, ceilLow, ordered, ready, rfl, flushed, rfl⟩⟩

end PutBucket.Backed

end Exercising

section Entry

variable [DecidableEq ι] {now : Nat} {terms : ι → Terms}

/-- One unit of the bucket can be exercised by one of the two entry points. -/
def PutSystem.Exercisable (s : PutSystem ι) (i : ι) : Prop :=
  (∃ next, putStep s (.exercise i 1 1) = .ok next) ∨ ∃ j next, putStep s (.exerciseSpread i j 1 1) = .ok next

/-- Where the next unit is spread-backed, its long leg can be exercised by itself. -/
def PutSystem.LongReady (s : PutSystem ι) (i : ι) : Prop :=
  ∀ r ∈ (s.buckets i).spreads, r.Has (s.buckets i).exerciseCursor → ∀ escrow,
    (s.buckets i).escrows r.start = some escrow →
    ∃ proceeds long, (s.buckets escrow.longBucketId).exercise s.now 1 1 = .ok (proceeds, long)

theorem putStep_exercise {s : PutSystem ι} {i : ι} {amount delivery payout : Nat} {b : PutBucket ι}
    (held : amount ≤ s.wallets i) (exercised : (s.buckets i).exercise s.now amount delivery = .ok (payout, b)) :
    ∃ next, putStep s (.exercise i amount delivery) = .ok next :=
  ⟨_, bind_ok.mpr ⟨_, System.take_ok.mpr ⟨held, rfl⟩, bind_ok.mpr ⟨_, exercised, rfl⟩⟩⟩

theorem putStep_exerciseSpread {s : PutSystem ι} {i j : ι} {amount delivery payout : Nat} {b long : PutBucket ι}
    (different : i ≠ j) (held : amount ≤ s.wallets i)
    (exercised : (s.buckets i).exerciseSpread s.now j (s.buckets j) amount delivery = .ok (payout, b, long)) :
    ∃ next, putStep s (.exerciseSpread i j amount delivery) = .ok next ∧ next.now = s.now ∧
      next.buckets = Function.update (Function.update s.buckets i b) j long :=
  ⟨_, check_bind_ok.mpr ⟨different, bind_ok.mpr ⟨_, System.take_ok.mpr ⟨held, rfl⟩,
    bind_ok.mpr ⟨_, exercised, rfl⟩⟩⟩, rfl, rfl⟩

theorem PutSystem.Held.not_exercisable {s : PutSystem ι} (held : s.Held terms) {i : ι}
    (wedged : (s.buckets i).toQueue.Wedged) : ¬ s.Exercisable i := by
  obtain ⟨plain, _, backed⟩ := held.bucket i
  have sound := backed.sound
  rintro (⟨next, ran⟩ | ⟨j, next, ran⟩)
  · obtain ⟨_, taken, ran⟩ := bind_ok.mp ran
    obtain ⟨_, rfl⟩ := System.take_ok.mp taken
    obtain ⟨⟨_, _⟩, exercised, _⟩ := bind_ok.mp ran
    obtain ⟨_, _, _, _, _, _, _, advanced, _⟩ := PutBucket.exercise_ok.mp exercised
    obtain ⟨_, _, _, walked, _⟩ := Queue.advanceCursor_walked sound.ready
      (Queue.nextSpreadStart_bounding sound.spreadsOrdered) advanced
    exact sound.not_walked wedged Nat.one_pos walked
  · obtain ⟨_, ran⟩ := check_bind_ok.mp ran
    obtain ⟨_, taken, ran⟩ := bind_ok.mp ran
    obtain ⟨_, rfl⟩ := System.take_ok.mp taken
    obtain ⟨⟨_, _, _⟩, exercised, _⟩ := bind_ok.mp ran
    obtain ⟨_, _, _, reached, s', _, _, _, _, _, found, _⟩ := PutBucket.exerciseSpread_ok.mp exercised
    -- The cursor would stand on a spread and on a tombstone at once.
    obtain ⟨spread, begins, ahead⟩ := sound.spread_at_cursor found
    obtain ⟨r, closed, here, _⟩ := wedged
    have nonempty := sound.closedSeparated.nonempty r closed
    have apart := sound.closed_spread closed spread
    change (s.buckets i).exerciseCursor < s'.stop at ahead
    change (s.buckets i).toQueue.nextSpreadStart _ ≤ (s.buckets i).exerciseCursor at reached
    change s'.start = (s.buckets i).toQueue.nextSpreadStart _ at begins
    omega

/-- In every reachable state in which the bucket is live and a put unit is held,
that unit can be exercised exactly when the queue is not wedged. -/
theorem put_exercisable_iff {ops : List (PutOp ι)} {s : PutSystem ι}
    (ran : exec putStep (PutSystem.create now terms) ops = .ok s) {i : ι} (valid : (terms i).Valid)
    (live : s.now < (s.buckets i).expiryMs) (supplied : 1 ≤ (s.buckets i).supply) (holder : 1 ≤ s.wallets i)
    (ready : s.LongReady i) : s.Exercisable i ↔ ¬ (s.buckets i).toQueue.Wedged := by
  have held := PutSystem.held_of_run ran
  have admitted := PutSystem.admitted_of_run ran i
  obtain ⟨plain, _, backed⟩ := held.bucket i
  have sound := backed.sound
  constructor
  · exact fun exercisable wedged => held.not_exercisable wedged exercisable
  · intro free
    by_cases before : (s.buckets i).exerciseCursor < (s.buckets i).toQueue.nextSpreadStart (s.buckets i).exerciseCursor
    · have valid : (s.buckets i).terms.Valid := by rw [held.terms]; exact valid
      obtain ⟨payout, b, exercised⟩ := backed.exercise_one live valid supplied free before
      exact Or.inl (putStep_exercise holder exercised)
    · have outstanding := backed.supply live
      cases found : (s.buckets i).spreads.find? (fun r => (s.buckets i).exerciseCursor < r.stop) with
      | none =>
        simp only [Queue.nextSpreadStart, found] at before
        omega
      | some r =>
        rw [Queue.nextSpreadStart_some found] at before
        have member := List.mem_of_find?_eq_some found
        have here : r.Has (s.buckets i).exerciseCursor := ⟨by omega, by simpa using List.find?_some found⟩
        obtain ⟨escrow, listed, _⟩ := backed.escrowed.held r member
        obtain ⟨proceeds, long, exercised⟩ := ready r member here escrow listed
        obtain ⟨payout, b, done⟩ :=
          backed.exerciseSpread_one admitted (held.terms i) live supplied member here listed exercised
        obtain ⟨next, stepped, _⟩ := putStep_exerciseSpread (admitted.other _ _ listed) holder done
        exact Or.inr ⟨escrow.longBucketId, next, stepped⟩

omit [DecidableEq ι] in
theorem PutSystem.longReady_of {s : PutSystem ι} {i : ι} {r : Range} {escrow : SpreadEscrow ι}
    (alone : (s.buckets i).spreads = [r]) (listed : (s.buckets i).escrows r.start = some escrow)
    (ready : ((s.buckets escrow.longBucketId).exercise s.now 1 1).toOption.isSome) : s.LongReady i := by
  intro r' member here escrow' listed'
  rw [alone] at member
  cases List.mem_singleton.mp member
  cases listed.symm.trans listed'
  cases ran : (s.buckets escrow.longBucketId).exercise s.now 1 1 with
  | error why => rw [ran] at ready; cases ready
  | ok done => exact ⟨done.1, done.2, rfl⟩

-- A spread right behind a plain unit: once that unit is exercised the cursor stands on the spread.
theorem put_exercisable_on_spread :
    ∃ s, exec putStep (PutSystem.create 0 (fun high : Bool => ⟨100, if high then 25 else 15, 1⟩))
        [.write false 15 10, .write true 3 1, .writeSpread true true false 5 7, .exercise true 1 1] = .ok s ∧
      s.Exercisable true := by
  refine exists_ok (fun s => decide (s.now < (s.buckets true).expiryMs ∧ 1 ≤ (s.buckets true).supply ∧
    1 ≤ s.wallets true ∧ (s.buckets true).spreads = [⟨1, 6⟩] ∧
    (s.buckets true).escrows 1 = some ⟨5, 7, false⟩ ∧
    ((s.buckets false).exercise s.now 1 1).toOption.isSome ∧ (s.buckets true).closed = [])) (by decide +kernel)
    (fun s ran passed => ?_)
  obtain ⟨live, supplied, holder, alone, listed, ready, open'⟩ := of_decide_eq_true passed
  refine (put_exercisable_iff ran ⟨by decide, by decide⟩ live supplied holder
    (PutSystem.longReady_of alone listed ready)).mpr ?_
  rintro ⟨r, closed, _⟩
  rw [open'] at closed
  cases closed

-- The plain units before a spread are all closed while the cursor stands at the first of them.
theorem put_exercise_wedged :
    ∃ s, exec putStep (PutSystem.create 0 (fun high : Bool => ⟨100, if high then 25 else 15, 1⟩))
        [.write false 15 10, .write true 13 5, .writeSpread true true false 5 7,
          .closeOffset true ⟨true, ⟨0, 5⟩⟩ 5] = .ok s ∧
      s.now < (s.buckets true).expiryMs ∧ 1 ≤ (s.buckets true).supply ∧ 1 ≤ s.wallets true ∧ s.LongReady true ∧
      (∃ proceeds long, (s.buckets false).exercise s.now 1 1 = .ok (proceeds, long)) ∧ ¬ s.Exercisable true := by
  refine exists_ok (fun s => decide (s.now < (s.buckets true).expiryMs ∧ 1 ≤ (s.buckets true).supply ∧
    1 ≤ s.wallets true ∧ (s.buckets true).spreads = [⟨5, 10⟩] ∧
    (s.buckets true).escrows 5 = some ⟨5, 7, false⟩ ∧
    ((s.buckets false).exercise s.now 1 1).toOption.isSome ∧
    ⟨0, 5⟩ ∈ (s.buckets true).closed ∧ (s.buckets true).exerciseCursor = 0)) (by decide +kernel)
    (fun s ran passed => ?_)
  obtain ⟨live, supplied, holder, alone, listed, ready, closed, cursor⟩ := of_decide_eq_true passed
  refine ⟨live, supplied, holder, PutSystem.longReady_of alone listed ready, ?_, ?_⟩
  · cases ran : (s.buckets false).exercise s.now 1 1 with
    | error why => rw [ran] at ready; cases ready
    | ok done => exact ⟨done.1, done.2, rfl⟩
  · refine (PutSystem.held_of_run ran).not_exercisable ⟨_, closed, cursor.symm, ⟨5, 10⟩, ?_, rfl⟩
    rw [alone]
    exact List.mem_singleton_self _

end Entry

end SuiOptions.Core
