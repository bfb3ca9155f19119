import SuiOptions.Lib.Acyclic
import SuiOptions.Core.PutConservation
import SuiOptions.Core.PutExercise

/-! Which put buckets back which.

A bucket leans on those that back its unassigned spread units. Nothing orders
the buckets: `write_spread` admits any strike, so two of them can lean on each
other. `Careful` is the condition on a transaction under which they do not, and
under which no queue is wedged; `Clean` is what careful transactions keep.
-/

set_option autoImplicit false

namespace SuiOptions.Core

open Execution Move Ranges Acyclic Relation

variable {ι : Type} [DecidableEq ι]

def PutBucket.LeansOn (b : PutBucket ι) (j : ι) : Prop :=
  ∃ start escrow, b.escrows start = some escrow ∧ 0 < escrow.long ∧ escrow.longBucketId = j

def PutSystem.LeansOn (s : PutSystem ι) (i j : ι) : Prop := (s.buckets i).LeansOn j

/-- Coins and units can still be added after a write of the given amount. -/
def PutBucket.Room (b : PutBucket ι) (amount : Nat) : Prop :=
  b.supply + amount + 1 < u64Bound - 1 ∧ 2 * (b.totalWritten + amount) + 1 < u128Bound

instance (b : PutBucket ι) (amount : Nat) : Decidable (b.Room amount) := inferInstanceAs (Decidable (_ ∧ _))

/-- The condition on a transaction, given the state before it: a spread closes no
cycle of backing buckets, no close and no spread leaves a wedged queue, a bucket
with unassigned spread units is not invalidated, and writes leave room. -/
def PutSystem.Careful (s : PutSystem ι) : PutOp ι → Prop
  | .write i _ amount => (s.buckets i).Room amount
  | .writeSpread _ i j amount _ => (s.buckets i).Room amount ∧ ¬ ReflTransGen s.LeansOn j i ∧
      ⟨(s.buckets i).exerciseCursor, (s.buckets i).totalWritten⟩ ∉ (s.buckets i).closed
  | .closeOffset i p amount => ¬ Queue.Wedged { (s.buckets i).toQueue with
      closed := insertRange (s.buckets i).closed (p.range.stop - amount) p.range.stop }
  | .closeSpread i p _ => ¬ ((PutBucket.closedQueue (s.buckets i).toQueue
      (assignedEnd (s.buckets i).exerciseCursor p.range) p.range).removeSpread p.range.start).Wedged
  | .invalidateBucket i => ∀ r ∈ (s.buckets i).spreads, r.stop ≤ (s.buckets i).exerciseCursor
  | _ => True

structure PutBucket.Tidy (now : Nat) (b : PutBucket ι) : Prop where
  free : now < b.expiryMs → ¬ b.toQueue.Wedged
  valid : b.invalidated = true → ∀ r ∈ b.spreads, r.stop ≤ b.exerciseCursor
  supply : b.supply + 1 < u64Bound - 1
  total : b.totalWritten + within b.spreads b.exerciseCursor b.totalWritten + 1 < u128Bound

section Tidy

variable {now amount delivery payout : Nat} {b next long longNext : PutBucket ι} {plain retired : List Range}

omit [DecidableEq ι] in
theorem Queue.not_wedged {q : Queue} (flushed : ∀ r ∈ q.closed, q.exerciseCursor < r.start) : ¬ q.Wedged := by
  rintro ⟨r, closed, here, _⟩
  have := flushed r closed
  omega

omit [DecidableEq ι] in
theorem PutBucket.Tidy.later (tidy : b.Tidy now) {time : Nat} (passed : now ≤ time) : b.Tidy time :=
  ⟨fun live => tidy.free (by omega), tidy.valid, tidy.supply, tidy.total⟩

omit [DecidableEq ι] in
theorem PutBucket.Tidy.same (tidy : b.Tidy now) (queue : next.toQueue = b.toQueue) (expiry : next.expiryMs = b.expiryMs)
    (flag : next.invalidated = b.invalidated) (supply : next.supply ≤ b.supply) : next.Tidy now := by
  refine ⟨?_, ?_, ?_, ?_⟩
  · rw [queue, expiry]
    exact tidy.free
  · rw [queue, flag]
    exact tidy.valid
  · have := tidy.supply
    omega
  · rw [queue]
    exact tidy.total

omit [DecidableEq ι] in
theorem PutBucket.Backed.exercise_flushed (backed : b.Backed now plain retired)
    (ran : b.exercise now amount delivery = .ok (payout, next)) :
    (∀ r ∈ next.closed, next.exerciseCursor < r.start) ∧ b.exerciseCursor ≤ next.exerciseCursor := by
  obtain ⟨_, _, _, _, _, _, walked, advanced, _, _, rfl⟩ := PutBucket.exercise_ok.mp ran
  obtain ⟨final, dropped, rfl, walk, stopped⟩ := Queue.advanceCursor_walked backed.sound.ready
    (Queue.nextSpreadStart_bounding backed.sound.spreadsOrdered) advanced
  have moved : final.cur = b.exerciseCursor + amount + size dropped := walk.cur_eq
  exact ⟨stopped, by simp only [Queue.withWalk]; omega⟩

omit [DecidableEq ι] in
theorem PutBucket.Tidy.exercise (tidy : b.Tidy now) (backed : b.Backed now plain retired)
    (ran : b.exercise now amount delivery = .ok (payout, next)) : next.Tidy now := by
  obtain ⟨flushed, forward⟩ := backed.exercise_flushed ran
  obtain ⟨spreads, _, total, flag, _, supply⟩ := PutBucket.exercise_frame ran
  refine ⟨fun _ => Queue.not_wedged flushed, fun invalid r member => ?_, ?_, ?_⟩
  · rw [flag] at invalid
    rw [spreads] at member
    exact (tidy.valid invalid r member).trans forward
  · have := tidy.supply
    omega
  · have ahead := within_anti b.spreads forward b.totalWritten
    have := tidy.total
    rw [spreads, total]
    omega

theorem PutBucket.Backed.exerciseSpread_flushed (backed : b.Backed now plain retired) {longId : ι}
    (ran : b.exerciseSpread now longId long amount delivery = .ok (payout, next, longNext)) :
    (∀ r ∈ next.closed, next.exerciseCursor < r.start) ∧ b.exerciseCursor + amount ≤ next.exerciseCursor := by
  obtain ⟨live, positive, _, reached, s, escrow, _, _, _, walk, found, _, inside, enough, held, _, _, _, _, _, _, _,
    flushed, rfl⟩ := PutBucket.exerciseSpread_ok.mp ran
  obtain ⟨member, begins, _⟩ := backed.sound.spread_at_cursor found
  rw [← begins] at reached held
  have assigned := backed.assigned live member reached inside positive enough held 0
  obtain ⟨dropped, walked, stopped⟩ := flush_walked assigned.sound.ready flushed
  have moved : walk.cur = b.exerciseCursor + amount + 0 + size dropped := walked.cur_eq
  exact ⟨stopped, by simp only [Queue.withWalk]; omega⟩

theorem PutBucket.exerciseSpread_frame {longId : ι}
    (ran : b.exerciseSpread now longId long amount delivery = .ok (payout, next, longNext)) :
    next.spreads = b.spreads ∧ next.totalWritten = b.totalWritten ∧ next.invalidated = b.invalidated ∧
      amount ≤ b.supply ∧ next.supply = b.supply - amount := by
  obtain ⟨_, _, _, _, _, _, _, _, _, _, _, _, _, enough, _, _, _, _, _, _, _, _, _, rfl⟩ :=
    PutBucket.exerciseSpread_ok.mp ran
  exact ⟨rfl, rfl, rfl, enough, rfl⟩

theorem PutBucket.Tidy.exerciseSpread (tidy : b.Tidy now) (backed : b.Backed now plain retired) {longId : ι}
    (ran : b.exerciseSpread now longId long amount delivery = .ok (payout, next, longNext)) : next.Tidy now := by
  obtain ⟨flushed, forward⟩ := backed.exerciseSpread_flushed ran
  obtain ⟨spreads, total, flag, _, supply⟩ := PutBucket.exerciseSpread_frame ran
  refine ⟨fun _ => Queue.not_wedged flushed, fun invalid r member => ?_, ?_, ?_⟩
  · rw [flag] at invalid
    rw [spreads] at member
    exact (tidy.valid invalid r member).trans (by omega)
  · have := tidy.supply
    omega
  · have ahead := within_anti b.spreads (by omega : b.exerciseCursor ≤ next.exerciseCursor) b.totalWritten
    have := tidy.total
    rw [spreads, total]
    omega

omit [DecidableEq ι] in
theorem PutBucket.Tidy.write (tidy : b.Tidy now) (backed : b.Backed now plain retired) {collateral : Nat}
    {range : Range} (room : b.Room amount) (ran : b.writeAndCheck now collateral amount = .ok (range, next)) :
    next.Tidy now := by
  obtain ⟨_, _, _, _, _, _, rfl⟩ := PutBucket.writeAndCheck_ok.mp ran
  have once := backed.sound.spreadsOrdered.cover_le_one
  have ahead := within_le once b.exerciseCursor (b.totalWritten + amount)
  obtain ⟨coins, units⟩ := room
  refine ⟨tidy.free, tidy.valid, ?_, ?_⟩
  · simp only
    omega
  · simp only
    omega

omit [DecidableEq ι] in
theorem PutBucket.Tidy.writeSpread (tidy : b.Tidy now) (backed : b.Backed now plain retired) {allowed : Bool}
    {longId : ι} {topUp : Nat} {range : Range} (room : b.Room amount)
    (open' : ⟨b.exerciseCursor, b.totalWritten⟩ ∉ b.closed)
    (ran : b.writeSpread now allowed longId long amount topUp = .ok (range, next)) : next.Tidy now := by
  have kept := (backed.writeSpread ran).1
  obtain ⟨live, _, _, valid, _, _, _, _, _, rfl⟩ := PutBucket.writeSpread_ok ran
  have ahead := within_le kept.sound.spreadsOrdered.cover_le_one b.exerciseCursor (b.totalWritten + amount)
  obtain ⟨coins, units⟩ := room
  refine ⟨fun _ => ?_, fun invalid => ?_, ?_, ?_⟩
  · rintro ⟨r, closed, here, s, spread, begins⟩
    rcases List.mem_append.mp spread with old | new
    · exact tidy.free live ⟨r, closed, here, s, old, begins⟩
    · rw [List.mem_singleton.mp new] at begins
      simp only at here begins
      rw [← here, begins] at open'
      exact open' closed
  · simp only [valid] at invalid
    cases invalid
  · simp only
    omega
  · simp only at ahead ⊢
    omega

theorem within_erase_le {spreads : List Range} {s : Range} (sorted : Ordered spreads) (member : s ∈ spreads)
    (low high : Nat) : within (spreads.eraseP (fun r => r.start == s.start)) low high ≤ within spreads low high := by
  rw [within_perm (eraseP_start sorted member), within_cons]
  exact Nat.le_add_left _ _

omit [DecidableEq ι] in
/-- A spread leaves the list, with its escrow; the caller knows the tombstones. -/
theorem PutBucket.Tidy.remove (tidy : b.Tidy now) (sorted : Ordered b.spreads) {s : Range} (member : s ∈ b.spreads)
    (spreads : next.spreads = b.spreads.eraseP (fun r => r.start == s.start))
    (cursor : next.exerciseCursor = b.exerciseCursor) (total : next.totalWritten = b.totalWritten)
    (flag : next.invalidated = b.invalidated) (supply : next.supply ≤ b.supply)
    (free : now < next.expiryMs → ¬ next.toQueue.Wedged) : next.Tidy now := by
  refine ⟨free, fun invalid r left => ?_, ?_, ?_⟩
  · rw [flag] at invalid
    rw [spreads] at left
    rw [cursor]
    exact tidy.valid invalid r (List.mem_of_mem_eraseP left)
  · have := tidy.supply
    omega
  · have fewer := within_erase_le sorted member b.exerciseCursor b.totalWritten
    have := tidy.total
    rw [spreads, cursor, total]
    omega

end Tidy

section Leaning

variable {s next : PutSystem ι} {op : PutOp ι} {b : PutBucket ι} {i k y : ι}

omit [DecidableEq ι] in
theorem PutBucket.LeansOn.same {after : PutBucket ι} (leans : after.LeansOn y) (escrows : after.escrows = b.escrows) :
    b.LeansOn y := by
  obtain ⟨start, escrow, found, rest⟩ := leans
  exact ⟨start, escrow, by rw [← escrows]; exact found, rest⟩

omit [DecidableEq ι] in
theorem PutBucket.LeansOn.remove {after : PutBucket ι} (leans : after.LeansOn y) {place : Nat}
    (escrows : after.escrows = Function.update b.escrows place none) : b.LeansOn y := by
  obtain ⟨start, escrow, found, rest⟩ := leans
  rw [escrows] at found
  by_cases here : start = place
  · rw [here, Function.update_self] at found
    cases found
  · rw [Function.update_of_ne here] at found
    exact ⟨start, escrow, found, rest⟩

omit [DecidableEq ι] in
theorem PutBucket.LeansOn.draw {after : PutBucket ι} (leans : after.LeansOn y) {place amount cash : Nat}
    {old : SpreadEscrow ι} (held : b.escrows place = some old)
    (escrows : after.escrows = Function.update b.escrows place
      (some ⟨old.long - amount, cash, old.longBucketId⟩)) : b.LeansOn y := by
  obtain ⟨start, escrow, found, positive, backer⟩ := leans
  rw [escrows] at found
  by_cases here : start = place
  · rw [here, Function.update_self, Option.some.injEq] at found
    subst found
    exact ⟨place, old, held, by simp only at positive; omega, backer⟩
  · rw [Function.update_of_ne here] at found
    exact ⟨start, escrow, found, positive, backer⟩

theorem leans_update {buckets : ι → PutBucket ι} (leans : (Function.update buckets i b k).LeansOn y)
    (kept : b.LeansOn y → (buckets i).LeansOn y) : (buckets k).LeansOn y := by
  by_cases here : k = i
  · rw [here, Function.update_self] at leans
    rw [here]
    exact kept leans
  · rwa [Function.update_of_ne here] at leans

/-- Only `write_spread` makes a bucket lean on another one. -/
theorem PutMove.leans (moved : PutMove s op next) (leans : next.LeansOn k y) :
    s.LeansOn k y ∨ ∃ allowed amount topUp, op = .writeSpread allowed k y amount topUp := by
  cases moved with
  | tick later => exact Or.inl leans
  | write wrote =>
    obtain ⟨_, _, _, _, _, _, rfl⟩ := PutBucket.writeAndCheck_ok.mp wrote
    exact Or.inl (leans_update leans (fun own => own.same rfl))
  | exercise owned exercised =>
    exact Or.inl (leans_update leans (fun own => own.same (PutBucket.exercise_frame exercised).2.1))
  | redeem member redeemed =>
    obtain ⟨_, _, _, _, _, _, _, rfl⟩ := PutBucket.redeemPosition_ok redeemed
    exact Or.inl (leans_update leans (fun own => own.same rfl))
  | burn owned expired => exact Or.inl (leans_update leans (fun own => own.same rfl))
  | invalidate i => exact Or.inl (leans_update leans (fun own => own.same rfl))
  | revalidate i => exact Or.inl (leans_update leans (fun own => own.same rfl))
  | closeOffset owned member closed =>
    obtain ⟨_, _, _, _, _, _, _, _, _, _, _, rfl⟩ := PutBucket.closeOffset_ok closed
    exact Or.inl (leans_update leans (fun own => own.same rfl))
  | destroy member empty => exact Or.inl leans
  | @writeSpread allowed i j amount topUp range b different owned wrote =>
    obtain ⟨_, _, _, _, _, _, _, _, _, rfl⟩ := PutBucket.writeSpread_ok wrote
    by_cases here : k = i
    · subst here
      obtain ⟨start, escrow, found, positive, backer⟩ := leans
      simp only [System.pay, System.addPosition, System.setBucket, Function.update_self] at found
      -- the new spread leans on the bucket it was written over, the others as before
      by_cases new : start = (s.buckets k).totalWritten
      · rw [new, Function.update_self, Option.some.injEq] at found
        subst found
        exact Or.inr ⟨allowed, amount, topUp, by rw [← backer]⟩
      · rw [Function.update_of_ne new] at found
        exact Or.inl ⟨start, escrow, found, positive, backer⟩
    · refine Or.inl ?_
      change (Function.update s.buckets i _ k).LeansOn y at leans
      rwa [Function.update_of_ne here] at leans
  | @exerciseSpread i j amount delivery payout b long different owned exercised =>
    obtain ⟨_, _, _, _, _, escrow, _, _, _, _, _, _, _, _, held, _, _, _, _, _, inner, _, _, after⟩ :=
      PutBucket.exerciseSpread_ok.mp exercised
    -- the long bucket keeps its spreads
    have first : (Function.update s.buckets i b k).LeansOn y := by
      refine leans_update leans (fun own => ?_)
      rw [Function.update_of_ne (Ne.symm different)]
      exact own.same (PutBucket.exercise_frame inner).2.1
    -- the short one draws on its escrow, which only takes units off
    exact Or.inl (leans_update first (fun own => own.draw held (by rw [after])))
  | closeSpread owned member closed =>
    obtain ⟨_, _, _, _, _, _, rfl⟩ := PutBucket.closeSpread_ok closed
    exact Or.inl (leans_update leans (fun own => own.remove rfl))
  | redeemSpread member redeemed =>
    obtain ⟨_, _, _, _, rfl⟩ := PutBucket.redeemSpreadPosition_ok redeemed
    exact Or.inl (leans_update leans (fun own => own.remove rfl))

end Leaning

section Careful

/-- No bucket leans on itself through others, and every bucket is tidy. -/
structure PutSystem.Clean (s : PutSystem ι) : Prop where
  acyclic : IsAcyclic s.LeansOn
  tidy : ∀ i, (s.buckets i).Tidy s.now

variable {terms : ι → Terms} {s next : PutSystem ι} {op : PutOp ι}

theorem tidy_update {buckets : ι → PutBucket ι} {now : Nat} (tidy : ∀ k, (buckets k).Tidy now) {i : ι}
    {b : PutBucket ι} (own : b.Tidy now) (k : ι) : (Function.update buckets i b k).Tidy now := by
  by_cases here : k = i
  · rw [here, Function.update_self]
    exact own
  · rw [Function.update_of_ne here]
    exact tidy k

theorem PutMove.tidy (moved : PutMove s op next) (held : s.Held terms) (careful : s.Careful op)
    (tidy : ∀ i, (s.buckets i).Tidy s.now) (k : ι) : (next.buckets k).Tidy next.now := by
  cases moved with
  | tick later => exact (tidy k).later later
  | @write i collateral amount range b wrote =>
    obtain ⟨_, _, backed⟩ := held.bucket i
    exact tidy_update tidy ((tidy i).write backed careful wrote) k
  | @exercise i amount delivery payout b owned exercised =>
    obtain ⟨_, _, backed⟩ := held.bucket i
    exact tidy_update tidy ((tidy i).exercise backed exercised) k
  | @redeem i p b member redeemed =>
    obtain ⟨_, _, _, _, _, _, _, rfl⟩ := PutBucket.redeemPosition_ok redeemed
    refine tidy_update tidy ?_ k
    exact (tidy i).same rfl rfl rfl (le_refl _)
  | @burn i amount owned expired =>
    refine tidy_update tidy ?_ k
    exact (tidy i).same rfl rfl rfl (Nat.sub_le _ _)
  | invalidate i =>
    refine tidy_update tidy ?_ k
    -- a bucket with unassigned spread units is not invalidated: the condition on the call
    exact ⟨(tidy i).free, fun _ => careful, (tidy i).supply, (tidy i).total⟩
  | revalidate i =>
    refine tidy_update tidy ?_ k
    exact ⟨(tidy i).free, fun invalid => (by cases invalid), (tidy i).supply, (tidy i).total⟩
  | @closeOffset i p q amount b owned member closed =>
    obtain ⟨_, _, _, _, _, _, _, _, _, _, _, rfl⟩ := PutBucket.closeOffset_ok closed
    have supply := (tidy i).supply
    refine tidy_update tidy ?_ k
    -- the condition on the call keeps the queue from being wedged
    exact ⟨fun _ => careful, (tidy i).valid, by simp only; omega, (tidy i).total⟩
  | destroy member empty => exact tidy k
  | @writeSpread allowed i j amount topUp range b different owned wrote =>
    obtain ⟨_, _, backed⟩ := held.bucket i
    obtain ⟨room, _, open'⟩ := careful
    exact tidy_update tidy ((tidy i).writeSpread backed room open' wrote) k
  | @exerciseSpread i j amount delivery payout b long different owned exercised =>
    obtain ⟨_, _, backed⟩ := held.bucket i
    -- two buckets move, and both stay tidy
    obtain ⟨_, _, backing⟩ := held.bucket j
    obtain ⟨_, _, _, _, _, _, _, _, _, _, _, _, _, _, _, _, _, _, _, _, inner, _⟩ :=
      PutBucket.exerciseSpread_ok.mp exercised
    exact tidy_update (tidy_update tidy ((tidy i).exerciseSpread backed exercised))
      ((tidy j).exercise backing inner) k
  | @closeSpread i p amount escrow b owned member closed =>
    obtain ⟨_, _, backed⟩ := held.bucket i
    obtain ⟨_, _, spread, _, _, _, rfl⟩ := PutBucket.closeSpread_ok closed
    refine tidy_update tidy ?_ k
    exact (tidy i).remove backed.sound.spreadsOrdered spread rfl rfl rfl rfl (Nat.sub_le _ _) (fun _ => careful)
  | @redeemSpread i p escrow b member redeemed =>
    obtain ⟨_, _, backed⟩ := held.bucket i
    obtain ⟨expired, _, spread, _, rfl⟩ := PutBucket.redeemSpreadPosition_ok redeemed
    refine tidy_update tidy ?_ k
    refine (tidy i).remove backed.sound.spreadsOrdered spread rfl rfl rfl rfl (le_refl _) (fun live => ?_)
    simp only at live
    omega

theorem PutSystem.Clean.step (clean : s.Clean) (held : s.Held terms) (careful : s.Careful op)
    (stepped : putStep s op = .ok next) : next.Clean where
  acyclic := by
    have moved := putStep_move stepped
    by_cases spread : ∃ allowed i j amount topUp, op = .writeSpread allowed i j amount topUp
    · obtain ⟨allowed, i, j, amount, topUp, rfl⟩ := spread
      refine (clean.acyclic.add careful.2.1).mono (fun x y leans => ?_)
      rcases moved.leans leans with old | ⟨_, _, _, same⟩
      · exact Or.inl old
      · cases same
        exact Or.inr ⟨rfl, rfl⟩
    · refine clean.acyclic.mono (fun x y leans => (moved.leans leans).resolve_right ?_)
      rintro ⟨allowed, amount, topUp, same⟩
      exact spread ⟨allowed, x, y, amount, topUp, same⟩
  tidy := (putStep_move stepped).tidy held careful clean.tidy

omit [DecidableEq ι] in
theorem PutSystem.Clean.create (now : Nat) (terms : ι → Terms) : (PutSystem.create now terms).Clean where
  acyclic := by
    have none : ∀ i j, ¬ (PutSystem.create now terms).LeansOn i j := by
      rintro i j ⟨_, _, found, _⟩
      cases found
    intro x cycle
    obtain ⟨y, step, _⟩ := TransGen.head'_iff.mp cycle
    exact none x y step
  tidy := fun i => ⟨fun _ => Queue.not_wedged (by simp [PutSystem.create, PutBucket.create, Bucket.create]),
    by simp [PutSystem.create, PutBucket.create, Bucket.create],
    by simp [PutSystem.create, PutBucket.create, Bucket.create, u64Bound],
    by simp [PutSystem.create, PutBucket.create, Bucket.create, u128Bound]⟩

end Careful

end SuiOptions.Core
