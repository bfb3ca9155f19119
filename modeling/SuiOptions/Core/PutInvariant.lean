import SuiOptions.Core.PutBucket

/-! The invariant of the put buckets, over every run.

The plan is that of the call side: `PutBucket.Backed` is the invariant of one
bucket, `PutChange` lists what a transaction can do to one. The cash of the bucket
covers the unexercised plain units at the strike; spread ranges stay listed while
the cursor passes them and are backed by their escrows alone.
-/

set_option autoImplicit false

namespace SuiOptions.Core

open Execution Move Ranges

variable {ι : Type}

/-- The units of a spread range that are not assigned yet. -/
def unassigned (cursor : Nat) (s : Range) : Nat := s.stop - assignedEnd cursor s

structure PutBucket.Backed (now : Nat) (b : PutBucket ι) (plain retired : List Range) : Prop where
  sound : Sound b.toQueue (plain ++ retired)
  proper : ∀ r ∈ plain, r.start ≤ r.stop
  bounded : b.totalWritten < u128Bound
  escrowed : Escrowed b.spreads b.escrows (unassigned b.exerciseCursor)
  behind : now < b.expiryMs → Behind retired b.exerciseCursor
  supply : now < b.expiryMs → b.supply + b.exerciseCursor + b.closedPending = b.totalWritten
  underlying : b.underlyingBalance = within plain 0 b.exerciseCursor
  collateral : b.strike * within plain b.exerciseCursor b.totalWritten ≤
    10 ^ b.strikeScale * b.settlementBalance

section Queue

variable {q : Queue} {others : List Range} {cur : Nat} {s : Range}

theorem Queue.nextSpreadStart_some (found : q.spreads.find? (fun s => cur < s.stop) = some s) :
    q.nextSpreadStart cur = s.start := by
  simp only [Queue.nextSpreadStart, found]

theorem Queue.nextSpreadStart_none (passed : ∀ s ∈ q.spreads, s.stop ≤ cur) :
    q.nextSpreadStart cur = q.totalWritten := by
  have none : q.spreads.find? (fun s => cur < s.stop) = none := by
    rw [List.find?_eq_none]
    intro s member
    simpa using passed s member
  simp only [Queue.nextSpreadStart, none]

theorem Queue.first_unpassed (sorted : Ordered q.spreads) {r : Range}
    (found : q.spreads.find? (fun s => cur < s.stop) = some s) (member : r ∈ q.spreads) (ahead : cur < r.stop) :
    r = s ∨ s.stop ≤ r.start := by
  obtain ⟨_, before, after, listed, skipped⟩ := List.find?_eq_some_iff_append.mp found
  have ordered := sorted.ascending
  rw [listed] at member ordered
  rcases List.mem_append.mp member with early | late
  · have := skipped r early
    simp only [Bool.not_eq_eq_eq_not, Bool.not_true, decide_eq_false_iff_not] at this
    exact absurd ahead this
  · rcases List.mem_cons.mp late with same | later
    · exact Or.inl same
    · exact Or.inr ((List.pairwise_cons.mp (List.pairwise_append.mp ordered).2.1).1 r later)

theorem Queue.nextSpreadStart_bounding (sorted : Ordered q.spreads) : Bounding q.spreads q.nextSpreadStart := by
  intro cur r member ahead
  cases found : q.spreads.find? (fun s => cur < s.stop) with
  | none =>
    have := List.find?_eq_none.mp found r member
    simp only [decide_eq_true_eq] at this
    exact absurd ahead this
  | some s =>
    rw [Queue.nextSpreadStart_some found]
    have proper := sorted.nonempty s (List.mem_of_find?_eq_some found)
    rcases Queue.first_unpassed sorted found member ahead with same | beyond
    · rw [same]
    · omega

/-- The spread that `exercise_spread` finds is the first one not fully passed. -/
theorem Sound.spread_at_cursor (sound : Sound q others) (found : q.findSpread (q.nextSpreadStart cur) = .ok s) :
    s ∈ q.spreads ∧ s.start = q.nextSpreadStart cur ∧ cur < s.stop := by
  obtain ⟨member, begins⟩ := Queue.findSpread_ok found
  refine ⟨member, begins, ?_⟩
  cases first : q.spreads.find? (fun s => cur < s.stop) with
  | none =>
    have total : q.nextSpreadStart cur = q.totalWritten := by simp only [Queue.nextSpreadStart, first]
    have proper := sound.spreadsOrdered.nonempty s member
    have bound := sound.spread_stop_le member
    omega
  | some r =>
    rw [Queue.nextSpreadStart_some first] at begins
    have same := sound.spreadsOrdered.eq_of_start member (List.mem_of_find?_eq_some first) begins
    rw [same]
    simpa using List.find?_some first

/-- A cursor that moves outside a spread assigns none of its units. -/
theorem unassigned_of_clear {low high : Nat} (moved : low ≤ high)
    (clear : ∀ point, low ≤ point → point < high → ¬ s.Has point) : unassigned low s = unassigned high s := by
  rcases Nat.eq_or_lt_of_le moved with same | less
  · rw [same]
  · by_cases proper : s.start < s.stop
    · have apart : s.stop ≤ low ∨ high ≤ s.start := by
        by_contra neither
        exact clear (max low s.start) (le_max_left _ _) (by omega) ⟨le_max_right _ _, by omega⟩
      simp only [unassigned, assignedEnd]
      split_ifs <;> omega
    · simp only [unassigned, assignedEnd]
      split_ifs <;> omega

theorem assigned_behind (cur : Nat) (s : Range) : Behind [⟨s.start, assignedEnd cur s⟩] cur := by
  intro point low
  by_cases empty : assignedEnd cur s ≤ s.start
  · exact cover_empty empty point
  · refine behind_of_stop_le (fun r member => ?_) point low
    rw [List.mem_singleton.mp member]
    simp only [assignedEnd] at empty ⊢
    split_ifs at empty ⊢ <;> omega

theorem Sound.closeSpread (sound : Sound q others) (member : s ∈ q.spreads) :
    Sound ((PutBucket.closedQueue q (assignedEnd q.exerciseCursor s) s).removeSpread s.start)
      (⟨s.start, assignedEnd q.exerciseCursor s⟩ :: others) := by
  have released := sound.releaseSpread member
  have proper := sound.spreadsOrdered.nonempty s member
  by_cases remaining : assignedEnd q.exerciseCursor s < s.stop
  · have unpassed : q.exerciseCursor ≤ assignedEnd q.exerciseCursor s := by
      simp only [assignedEnd] at remaining ⊢
      split_ifs at remaining ⊢ <;> omega
    have low : s.start ≤ assignedEnd q.exerciseCursor s := by
      simp only [assignedEnd]
      split_ifs <;> omega
    have taken : ∀ point, cover (s :: others) point =
        cover (⟨s.start, assignedEnd q.exerciseCursor s⟩ :: others) point +
          cover [⟨assignedEnd q.exerciseCursor s, s.stop⟩] point := by
      intro point
      have cut : _ = cover [s] point := cover_cut low remaining.le point
      simp only [cover_cons, cover_nil] at cut ⊢
      omega
    simpa only [PutBucket.closedQueue, if_pos remaining, Queue.removeSpread] using
      released.tombstone taken remaining unpassed
  · have whole : assignedEnd q.exerciseCursor s = s.stop := by
      simp only [assignedEnd] at remaining ⊢
      split_ifs at remaining ⊢ <;> omega
    rw [whole]
    simpa only [PutBucket.closedQueue, lt_irrefl, if_false, Nat.sub_self, Nat.add_zero] using released

end Queue

namespace PutBucket.Backed

variable {now amount collateral delivery payout topUp : Nat} {b next long longNext : PutBucket ι}
  {plain rest retired : List Range} {r : Range}

theorem perm (backed : b.Backed now plain retired) (same : plain.Perm rest) : b.Backed now rest retired where
  sound := backed.sound.congr (fun point => by simp only [cover_append, cover_perm same])
  proper := fun r member => backed.proper r (same.mem_iff.mpr member)
  bounded := backed.bounded
  escrowed := backed.escrowed
  behind := backed.behind
  supply := backed.supply
  underlying := by rw [backed.underlying, within_perm same]
  collateral := by rw [← within_perm same]; exact backed.collateral

theorem later (backed : b.Backed now plain retired) {time : Nat} (passed : now ≤ time) :
    b.Backed time plain retired :=
  { backed with
    behind := fun live => backed.behind (by omega)
    supply := fun live => backed.supply (by omega) }

theorem invalidated (backed : b.Backed now plain retired) (flag : Bool) :
    PutBucket.Backed now { b with invalidated := flag } plain retired :=
  ⟨backed.sound, backed.proper, backed.bounded, backed.escrowed, backed.behind, backed.supply,
    backed.underlying, backed.collateral⟩

theorem burnExpired (backed : b.Backed now plain retired) (expired : b.expiryMs ≤ now) (supply : Nat) :
    PutBucket.Backed now { b with supply := supply } plain retired := by
  refine { backed with supply := ?_ }
  intro live
  simp only at live
  omega

theorem dropEmpty (backed : b.Backed now (r :: rest) retired) (empty : r.start = r.stop) :
    b.Backed now rest retired where
  sound := by
    refine backed.sound.congr (fun point => ?_)
    have nothing := cover_empty empty.ge point
    simp only [cover_singleton] at nothing
    simp only [cover_append, cover_cons]
    omega
  proper := fun r member => backed.proper r (List.mem_cons_of_mem _ member)
  bounded := backed.bounded
  escrowed := backed.escrowed
  behind := backed.behind
  supply := backed.supply
  underlying := by
    have held := backed.underlying
    simp only [within_cons, Range.within] at held
    omega
  collateral := by
    have held := backed.collateral
    have nothing : r.within b.exerciseCursor b.totalWritten = 0 := by simp only [Range.within]; omega
    rwa [within_cons, nothing, Nat.zero_add] at held

theorem covers (backed : b.Backed now plain retired) {units paid : Nat}
    (inside : units ≤ within plain b.exerciseCursor b.totalWritten)
    (priced : applyStrikeFloor units b.strike b.strikeScale = .ok paid) :
    paid ≤ b.settlementBalance ∧
      b.strike * (within plain b.exerciseCursor b.totalWritten - units) ≤
        10 ^ b.strikeScale * (b.settlementBalance - paid) := by
  have positive : 0 < 10 ^ b.strikeScale := by positivity
  have floor := applyStrikeFloor_le priced
  have held := backed.collateral
  have part : b.strike * units ≤ b.strike * within plain b.exerciseCursor b.totalWritten :=
    Nat.mul_le_mul_left _ inside
  rw [Nat.mul_comm units b.strike] at floor
  have enough : paid ≤ b.settlementBalance := Nat.le_of_mul_le_mul_left (by omega) positive
  refine ⟨enough, ?_⟩
  rw [Nat.mul_sub, Nat.mul_sub]
  omega

theorem write (backed : b.Backed now plain retired) {range : Range}
    (ran : b.writeAndCheck now collateral amount = .ok (range, next)) :
    next.Backed now (range :: plain) retired := by
  obtain ⟨live, _, priced, small, _, rfl, rfl⟩ := writeAndCheck_ok.mp ran
  have bound := backed.sound.cursorBound
  refine ⟨backed.sound.extend amount, ?_, small, backed.escrowed, backed.behind, ?_, ?_, ?_⟩
  · intro r member
    rcases List.mem_cons.mp member with same | member
    · rw [same]; exact Nat.le_add_right _ _
    · exact backed.proper r member
  · intro _
    have supplied := backed.supply live
    simp only
    omega
  · have held := backed.underlying
    simp only [within_cons, Range.within]
    omega
  · have posted := applyStrikeCeil_covers priced
    have held := backed.collateral
    have whole : (⟨b.totalWritten, b.totalWritten + amount⟩ : Range).within b.exerciseCursor
        (b.totalWritten + amount) = amount := by
      simp only [Range.within]; omega
    simp only [within_cons, whole, backed.sound.within_extend amount, Nat.mul_add]
    rw [Nat.mul_comm amount] at posted
    omega

/-- A walk of the cursor outside the spreads keeps the bucket backed as far as
the queue goes; the balances and the supply are the caller's. -/
theorem walk (backed : b.Backed now plain retired) {units : Nat} {final : Walk} {dropped : List Range}
    (live : now < b.expiryMs) (walked : Walked b.spreads units b.toQueue.walk final dropped)
    (capacity : b.exerciseCursor + units + b.closedPending ≤ b.totalWritten) {supply underlying cash : Nat}
    (supplied : supply = b.supply - units) (enough : units ≤ b.supply)
    (delivered : underlying = b.underlyingBalance + units)
    (collateral : b.strike * (within plain b.exerciseCursor b.totalWritten - units) ≤ 10 ^ b.strikeScale * cash) :
    PutBucket.Backed now { b with toQueue := b.toQueue.withWalk final
                                  supply := supply
                                  underlyingBalance := underlying
                                  settlementBalance := cash } plain (dropped ++ retired) := by
  have behind := backed.behind live
  have crossed := backed.sound.walked_units behind walked capacity
  have moved : final.cur = b.exerciseCursor + units + size dropped := walked.cur_eq
  have pending : b.closedPending = final.pending + size dropped := walked.pending_eq
  have sound := backed.sound.advance walked capacity
  have limit : final.cur ≤ b.totalWritten := sound.cursorBound
  have forward : b.exerciseCursor ≤ final.cur := by omega
  refine ⟨?_, backed.proper, backed.bounded, ?_, ?_, ?_, ?_, ?_⟩
  · exact sound.congr (fun point => by simp only [cover_append]; omega)
  · exact backed.escrowed.congr (fun s member => unassigned_of_clear forward (walked.clear s member))
  · intro _
    exact (behind_of_stop_le (fun r member => (walked.inside r member).2)).append (behind.mono forward)
  · intro _
    have outstanding := backed.supply live
    simp only [Queue.withWalk]
    omega
  · have passed := within_split plain (Nat.zero_le _) forward
    have held := backed.underlying
    simp only [Queue.withWalk]
    omega
  · have ahead := within_split plain forward limit
    have left : within plain final.cur b.totalWritten = within plain b.exerciseCursor b.totalWritten - units := by
      omega
    simp only [Queue.withWalk]
    rwa [left]

theorem advanced_units (backed : b.Backed now plain retired) (live : now < b.expiryMs) {walked : Queue}
    (capacity : b.exerciseCursor + amount + b.closedPending ≤ b.totalWritten)
    (advanced : b.toQueue.advanceCursor b.toQueue.nextSpreadStart .putSpreadExerciseRequired amount = .ok walked) :
    amount ≤ within plain b.exerciseCursor b.totalWritten := by
  obtain ⟨final, dropped, rfl, walk, _⟩ := Queue.advanceCursor_walked backed.sound.ready
    (Queue.nextSpreadStart_bounding backed.sound.spreadsOrdered) advanced
  have units := backed.sound.walked_units (backed.behind live) walk capacity
  have limit : final.cur ≤ b.totalWritten := (backed.sound.advance walk capacity).cursorBound
  have moved : final.cur = b.exerciseCursor + amount + size dropped := walk.cur_eq
  have ahead := within_split plain (by omega : b.exerciseCursor ≤ final.cur) limit
  omega

theorem exercise (backed : b.Backed now plain retired) (ran : b.exercise now amount delivery = .ok (payout, next)) :
    next.Backed now plain (skippedRanges b.toQueue next.toQueue ++ retired) ∧ next.spreads = b.spreads := by
  obtain ⟨live, _, _, _, capacity, enough, walked, advanced, priced, _, rfl⟩ := exercise_ok.mp ran
  have inside := backed.advanced_units live capacity advanced
  obtain ⟨final, dropped, rfl, walk, _⟩ := Queue.advanceCursor_walked backed.sound.ready
    (Queue.nextSpreadStart_bounding backed.sound.spreadsOrdered) advanced
  rw [show skippedRanges b.toQueue (b.toQueue.withWalk final) = dropped from walk.skipped_eq]
  exact ⟨backed.walk live walk capacity rfl enough rfl (backed.covers inside priced).2, rfl⟩

/-- The units of a position ahead of the cursor are those it has not been exercised for. -/
theorem unexercised_eq (backed : b.Backed now (r :: rest) retired) :
    r.size - exercisedUnits b.exerciseCursor r = r.within b.exerciseCursor b.totalWritten := by
  have proper := backed.proper r (by simp)
  rcases Nat.eq_or_lt_of_le proper with empty | nonempty
  · simp only [Range.size, exercisedUnits, Range.within]
    split_ifs <;> omega
  · have bound := backed.sound.other_stop_le (by simp) nonempty
    simp only [Range.size, exercisedUnits, Range.within]
    split_ifs <;> omega

theorem exercised_eq (backed : b.Backed now (r :: rest) retired) :
    exercisedUnits b.exerciseCursor r = r.within 0 b.exerciseCursor := by
  have proper := backed.proper r (by simp)
  simp only [exercisedUnits, Range.within]
  split_ifs <;> omega

theorem writeSpread (backed : b.Backed now plain retired) {allowed : Bool} {longId : ι} {range : Range}
    (ran : b.writeSpread now allowed longId long amount topUp = .ok (range, next)) :
    next.Backed now plain retired ∧ next.spreads = b.spreads ++ [range] := by
  obtain ⟨live, positive, _, _, _, small, _, rfl, free, rfl⟩ := writeSpread_ok ran
  have bound := backed.sound.cursorBound
  refine ⟨⟨backed.sound.extendSpread positive, backed.proper, small, ?_, backed.behind, ?_, backed.underlying, ?_⟩,
    rfl⟩
  · apply backed.escrowed.add free
    simp only [unassigned, assignedEnd, if_pos bound]
    omega
  · intro _
    have supplied := backed.supply live
    simp only
    omega
  · simp only [backed.sound.within_extend amount]
    exact backed.collateral

variable [DecidableEq ι] {id longId : ι} {p q : Position ι} {escrow : SpreadEscrow ι}

theorem redeem (backed : b.Backed now (p.range :: rest) retired) (ran : b.redeemPosition now id p = .ok next) :
    next.Backed now rest (p.range :: retired) := by
  have ahead := backed.unexercised_eq
  have passed := backed.exercised_eq
  obtain ⟨expired, _, _, owed, priced, _, _, rfl⟩ := redeemPosition_ok ran
  rw [ahead] at priced
  refine ⟨?_, ?_, backed.bounded, backed.escrowed, ?_, ?_, ?_, ?_⟩
  · exact backed.sound.congr (fun point => by simp only [cover_append, cover_cons]; omega)
  · exact fun r member => backed.proper r (List.mem_cons_of_mem _ member)
  · intro live
    simp only at live
    omega
  · intro live
    simp only at live
    omega
  · have held := backed.underlying
    simp only [within_cons] at held
    simp only
    omega
  · have left := (backed.covers (by simp only [within_cons]; omega) priced).2
    rwa [within_cons, Nat.add_sub_cancel_left] at left

theorem closeOffset (backed : b.Backed now (p.range :: rest) retired)
    (ran : b.closeOffset now id p amount = .ok (q, next)) : next.Backed now (q.range :: rest) retired := by
  obtain ⟨live, positive, _, inside, unexercised, _, enough, refund, priced, _, rfl, rfl⟩ := closeOffset_ok ran
  have bound := backed.sound.other_stop_le (by simp) (by omega : p.range.start < p.range.stop)
  refine ⟨?_, ?_, backed.bounded, backed.escrowed, backed.behind, ?_, ?_, ?_⟩
  · apply backed.sound.tombstone _ (by omega) unexercised
    intro point
    have cut : cover [p.range] point = _ :=
      (cover_cut (by omega : p.range.start ≤ p.range.stop - amount) (Nat.sub_le _ _) point).symm
    simp only [cover_append, cover_cons, cover_nil] at cut ⊢
    omega
  · intro r member
    rcases List.mem_cons.mp member with same | member
    · rw [same]; simp only; omega
    · exact backed.proper r (List.mem_cons_of_mem _ member)
  · intro _
    have supplied := backed.supply live
    simp only
    omega
  · have held := backed.underlying
    simp only [within_cons, Range.within] at held ⊢
    omega
  · have own : p.range.within b.exerciseCursor b.totalWritten =
        (⟨p.range.start, p.range.stop - amount⟩ : Range).within b.exerciseCursor b.totalWritten + amount := by
      simp only [Range.within]
      omega
    have left := (backed.covers (by simp only [within_cons]; omega) priced).2
    simp only [within_cons] at left ⊢
    rwa [own, Nat.add_right_comm, Nat.add_sub_cancel] at left

omit [DecidableEq ι] in
/-- Assigning units of the spread at the cursor moves the cursor inside it and
takes as many longs from its escrow; nothing else of the bucket is touched. -/
theorem assigned (backed : b.Backed now plain retired) {s : Range} (live : now < b.expiryMs)
    (member : s ∈ b.spreads) (reached : s.start ≤ b.exerciseCursor) (inside : b.exerciseCursor + amount ≤ s.stop)
    (positive : 0 < amount) (enough : amount ≤ b.supply) {escrow : SpreadEscrow ι}
    (held : b.escrows s.start = some escrow) (cash : Nat) :
    PutBucket.Backed now { b with
      exerciseCursor := b.exerciseCursor + amount
      supply := b.supply - amount
      escrows := Function.update b.escrows s.start
        (some ⟨escrow.long - amount, cash, escrow.longBucketId⟩) } plain retired := by
  have limit := backed.sound.spread_stop_le member
  have covered : ∀ point, b.exerciseCursor ≤ point → point < b.exerciseCursor + amount →
      cover (plain ++ retired) point = 0 := by
    intro point low high
    have := cover_pos member (⟨by omega, by omega⟩ : s.Has point)
    have := backed.sound.cover_le_one point
    omega
  have empty : within plain b.exerciseCursor (b.exerciseCursor + amount) = 0 := by
    apply within_eq_zero
    intro point low high
    have := covered point low high
    rw [cover_append] at this
    omega
  refine ⟨?_, backed.proper, backed.bounded, ?_, ?_, ?_, ?_, ?_⟩
  · refine backed.sound.jump (by omega) (fun r closed => ?_)
    have ahead := backed.sound.closedAhead r closed
    have proper := backed.sound.closedSeparated.nonempty r closed
    have apart := backed.sound.closed_spread closed member
    omega
  · refine backed.escrowed.replace backed.sound.spreadsOrdered member ?_ (fun r listed other => ?_)
    · obtain ⟨_, found, long⟩ := backed.escrowed.held s member
      cases held.symm.trans found
      simp only [unassigned, assignedEnd] at long ⊢
      split_ifs at long ⊢ <;> omega
    · -- The cursor stays inside this spread, so it meets none of the others.
      refine unassigned_of_clear (Nat.le_add_right _ _) (fun point low high has => other ?_)
      simp only at high
      exact backed.sound.spreadsOrdered.eq_of_has listed member has ⟨by omega, by omega⟩
  · exact fun _ => (backed.behind live).mono (Nat.le_add_right _ _)
  · intro _
    have supplied := backed.supply live
    simp only
    omega
  · have passed := within_split plain (Nat.zero_le _) (Nat.le_add_right b.exerciseCursor amount)
    have holds := backed.underlying
    simp only
    omega
  · have ahead := within_split plain (Nat.le_add_right b.exerciseCursor amount) (by omega : _ ≤ b.totalWritten)
    have holds := backed.collateral
    rwa [← ahead, empty, Nat.zero_add] at holds

theorem exerciseSpread (backed : b.Backed now plain retired)
    (ran : b.exerciseSpread now longId long amount delivery = .ok (payout, next, longNext)) :
    next.Backed now plain (skippedRanges b.toQueue next.toQueue ++ retired) ∧ next.spreads = b.spreads := by
  obtain ⟨live, positive, _, reached, s, escrow, high, low, proceeds, walk, found, _, inside, enough, held, _, _, _, _, _, _, _,
    flushed, rfl⟩ := exerciseSpread_ok.mp ran
  obtain ⟨member, begins, _⟩ := backed.sound.spread_at_cursor found
  rw [← begins] at reached held ⊢
  have assigned := backed.assigned live member reached inside positive enough held
    (settleSpread proceeds (high - low) escrow.cash).2
  obtain ⟨dropped, walked, _⟩ := flush_walked assigned.sound.ready flushed
  have capacity : b.exerciseCursor + amount + b.closedPending ≤ b.totalWritten := by
    have supplied := backed.supply live
    omega
  have skipped : skippedRanges b.toQueue (b.toQueue.withWalk walk) = dropped := walked.skipped_eq
  rw [skipped]
  exact ⟨assigned.walk live walked capacity rfl (Nat.zero_le _) rfl assigned.collateral, rfl⟩

theorem closeSpread (backed : b.Backed now plain retired)
    (ran : b.closeSpread now id p amount = .ok (escrow, next)) :
    next.Backed now plain (⟨p.range.start, assignedEnd b.exerciseCursor p.range⟩ :: retired) ∧
      b.spreads.Perm (p.range :: next.spreads) := by
  obtain ⟨live, _, member, rfl, enough, _, rfl⟩ := closeSpread_ok ran
  refine ⟨⟨?_, backed.proper, backed.bounded, ?_, ?_, ?_, backed.underlying, backed.collateral⟩,
    eraseP_start backed.sound.spreadsOrdered member⟩
  · exact (backed.sound.closeSpread member).congr
      (fun point => by simp only [cover_append, cover_cons]; omega)
  · exact backed.escrowed.remove backed.sound.spreadsOrdered member
  · exact fun _ => (assigned_behind _ _).append (backed.behind live)
  · intro _
    have supplied := backed.supply live
    simp only [closedQueue, Queue.removeSpread]
    omega

theorem redeemSpread (backed : b.Backed now plain retired)
    (ran : b.redeemSpreadPosition now id p = .ok (escrow, next)) :
    next.Backed now plain (p.range :: retired) ∧ b.spreads.Perm (p.range :: next.spreads) := by
  obtain ⟨expired, _, member, _, rfl⟩ := redeemSpreadPosition_ok ran
  refine ⟨⟨?_, backed.proper, backed.bounded, ?_, ?_, ?_, backed.underlying, backed.collateral⟩,
    eraseP_start backed.sound.spreadsOrdered member⟩
  · exact (backed.sound.releaseSpread member).congr
      (fun point => by simp only [cover_append, cover_cons]; omega)
  · exact backed.escrowed.remove backed.sound.spreadsOrdered member
  · intro live
    simp only at live
    omega
  · intro live
    simp only at live
    omega

end PutBucket.Backed

section Changes

variable [DecidableEq ι]

/-- What one transaction can do to one of the buckets, its live ranges and its retired ones. -/
inductive PutChange (now : Nat) (buckets : ι → PutBucket ι) (i : ι) (live retired : List Range) :
    PutBucket ι → List Range → List Range → Prop where
  | idle {after : List Range} : live.Perm after → PutChange now buckets i live retired (buckets i) after retired
  | write {collateral amount : Nat} {range : Range} {next : PutBucket ι} :
      (buckets i).writeAndCheck now collateral amount = .ok (range, next) →
      PutChange now buckets i live retired next (range :: live) retired
  | exercise {amount delivery payout : Nat} {next : PutBucket ι} :
      (buckets i).exercise now amount delivery = .ok (payout, next) →
      PutChange now buckets i live retired next live
        (skippedRanges (buckets i).toQueue next.toQueue ++ retired)
  | redeem {p : Position ι} {next : PutBucket ι} {after : List Range} :
      live.Perm (p.range :: after) → (buckets i).redeemPosition now i p = .ok next →
      PutChange now buckets i live retired next after (p.range :: retired)
  | burn (supply : Nat) : (buckets i).expiryMs ≤ now →
      PutChange now buckets i live retired { buckets i with supply := supply } live retired
  | flag (value : Bool) : PutChange now buckets i live retired { buckets i with invalidated := value } live retired
  | closeOffset {p q : Position ι} {amount : Nat} {next : PutBucket ι} {after : List Range} :
      live.Perm (p.range :: after) → (buckets i).closeOffset now i p amount = .ok (q, next) →
      PutChange now buckets i live retired next (q.range :: after) retired
  | destroy {range : Range} {after : List Range} : live.Perm (range :: after) → range.start = range.stop →
      PutChange now buckets i live retired (buckets i) after retired
  | writeSpread {allowed : Bool} {j : ι} {next : PutBucket ι} {amount topUp : Nat} {range : Range} : i ≠ j →
      (buckets i).writeSpread now allowed j (buckets j) amount topUp = .ok (range, next) →
      PutChange now buckets i live retired next (range :: live) retired
  | exerciseSpread {j : ι} {amount delivery payout : Nat} {next longNext : PutBucket ι} : i ≠ j →
      (buckets i).exerciseSpread now j (buckets j) amount delivery = .ok (payout, next, longNext) →
      PutChange now buckets i live retired next live
        (skippedRanges (buckets i).toQueue next.toQueue ++ retired)
  | closeSpread {p : Position ι} {amount : Nat} {escrow : SpreadEscrow ι} {next : PutBucket ι}
      {after : List Range} : live.Perm (p.range :: after) →
      (buckets i).closeSpread now i p amount = .ok (escrow, next) →
      PutChange now buckets i live retired next after
        (⟨p.range.start, assignedEnd (buckets i).exerciseCursor p.range⟩ :: retired)
  | redeemSpread {p : Position ι} {escrow : SpreadEscrow ι} {next : PutBucket ι} {after : List Range} :
      live.Perm (p.range :: after) → (buckets i).redeemSpreadPosition now i p = .ok (escrow, next) →
      PutChange now buckets i live retired next after (p.range :: retired)

theorem PutMove.now_le {s next : PutSystem ι} {op : PutOp ι} (moved : PutMove s op next) : s.now ≤ next.now := by
  cases moved with
  | tick later => exact later
  | _ => exact le_refl _

abbrev PutSystem.Changed (s : PutSystem ι) (k : ι) : PutBucket ι → List Range → List Range → Prop :=
  PutChange s.now s.buckets k (s.ranges k) (s.retired k)

theorem exercisedSpread_changed {s : PutSystem ι} {i j : ι} {amount delivery payout : Nat} {b long : PutBucket ι}
    {gone : List Range} (different : i ≠ j)
    (exercised : (s.buckets i).exerciseSpread s.now j (s.buckets j) amount delivery = .ok (payout, b, long))
    (skipped : gone = skippedRanges (s.buckets i).toQueue b.toQueue ++ s.retired i) (k : ι) :
    s.Changed k (Function.update (Function.update s.buckets i b) j long k) (s.ranges k)
      (Function.update (Function.update s.retired i gone) j
        (skippedRanges (s.buckets j).toQueue long.toQueue ++ Function.update s.retired i gone j) k) := by
  subst skipped
  by_cases second : k = j
  · subst second
    rw [Function.update_self, Function.update_self, Function.update_of_ne (Ne.symm different)]
    obtain ⟨_, _, _, _, _, _, _, _, _, _, _, _, _, _, _, _, _, _, _, _, inner, _⟩ :=
      PutBucket.exerciseSpread_ok.mp exercised
    exact .exercise inner
  · rw [Function.update_of_ne second, Function.update_of_ne second]
    by_cases first : k = i
    · subst first
      rw [Function.update_self, Function.update_self]
      exact .exerciseSpread different exercised
    · rw [Function.update_of_ne first, Function.update_of_ne first]
      exact .idle (List.Perm.refl _)

theorem PutMove.change {s next : PutSystem ι} {op : PutOp ι} (moved : PutMove s op next) (k : ι) :
    s.Changed k (next.buckets k) (next.ranges k) (next.retired k) := by
  have idle : ∀ k after, (s.ranges k).Perm after → s.Changed k (s.buckets k) after (s.retired k) :=
    fun _ _ => .idle
  have same : ∀ {i : ι} (k : ι), k ≠ i → s.retired k = s.retired k := fun _ _ => rfl
  have more : ∀ {i : ι} {gone : List Range} (k : ι), k ≠ i →
      Function.update s.retired i (gone ++ s.retired i) k = s.retired k := fun _ => (Function.update_of_ne · _ _)
  cases moved with
  | tick later => exact idle k _ (List.Perm.refl _)
  | write wrote => exact System.add_each (P := s.Changed) idle (.write wrote) k
  | @exercise i amount delivery payout b held exercised =>
    refine System.update_each (P := s.Changed) idle more ?_ k
    rw [Function.update_self]
    exact .exercise exercised
  | @redeem i p b member redeemed =>
    obtain ⟨_, own, _⟩ := PutBucket.redeemPosition_ok redeemed
    refine System.drop_each (P := s.Changed) idle more member own (fun after parts => ?_) k
    rw [Function.update_self]
    exact .redeem parts redeemed
  | burn held expired => exact System.update_each (P := s.Changed) idle same (.burn _ expired) k
  | invalidate i => exact System.update_each (P := s.Changed) idle same (.flag true) k
  | revalidate i => exact System.update_each (P := s.Changed) idle same (.flag false) k
  | @closeOffset i p q amount b held member closed =>
    have parts := System.ranges_drop member k
    obtain ⟨_, _, own, _, _, _, _, _, _, _, shrunk, _⟩ := PutBucket.closeOffset_ok closed
    have kept : q.bucketId = i := by rw [shrunk]
    change s.Changed k (Function.update s.buckets i b k)
      (((s.dropPosition p).addPosition q.bucketId q.range).ranges k) _
    rw [System.ranges_cons]
    by_cases here : k = i
    · subst here
      rw [if_pos own] at parts
      rw [Function.update_self, if_pos kept]
      exact .closeOffset parts closed
    · rw [own, if_neg (Ne.symm here)] at parts
      rw [Function.update_of_ne here, kept, if_neg (Ne.symm here)]
      exact .idle parts
  | @destroy p member empty =>
    have parts := System.ranges_drop member k
    change s.Changed k (s.buckets k) _ (s.retired k)
    by_cases own : p.bucketId = k
    · rw [if_pos own] at parts
      exact .destroy parts empty
    · rw [if_neg own] at parts
      exact .idle parts
  | writeSpread different held wrote => exact System.add_each (P := s.Changed) idle (.writeSpread different wrote) k
  | exerciseSpread different held exercised => exact exercisedSpread_changed different exercised rfl k
  | @closeSpread i p amount escrow b held member closed =>
    obtain ⟨_, own, _⟩ := PutBucket.closeSpread_ok closed
    refine System.drop_each (P := s.Changed) idle more member own (fun after parts => ?_) k
    rw [Function.update_self]
    exact .closeSpread parts closed
  | @redeemSpread i p escrow b member redeemed =>
    obtain ⟨_, own, _⟩ := PutBucket.redeemSpreadPosition_ok redeemed
    refine System.drop_each (P := s.Changed) idle more member own (fun after parts => ?_) k
    rw [Function.update_self]
    exact .redeemSpread parts redeemed

omit [DecidableEq ι] in
theorem PutBucket.exercise_frame {now amount delivery payout : Nat} {b next : PutBucket ι}
    (ran : b.exercise now amount delivery = .ok (payout, next)) :
    next.spreads = b.spreads ∧ next.escrows = b.escrows ∧ next.totalWritten = b.totalWritten ∧
      next.invalidated = b.invalidated ∧ amount ≤ b.supply ∧ next.supply = b.supply - amount := by
  obtain ⟨_, _, _, _, _, enough, walked, advanced, _, _, rfl⟩ := PutBucket.exercise_ok.mp ran
  obtain ⟨_, _, advanced⟩ := bind_ok.mp advanced
  obtain ⟨_, _, advanced⟩ := bind_ok.mp advanced
  cases pure_ok.mp advanced
  exact ⟨rfl, rfl, rfl, rfl, enough, rfl⟩

omit [DecidableEq ι] in
theorem PutBucket.exercise_terms {now amount delivery payout : Nat} {b next : PutBucket ι}
    (ran : b.exercise now amount delivery = .ok (payout, next)) : next.terms = b.terms := by
  obtain ⟨_, _, _, _, _, _, _, _, _, _, rfl⟩ := PutBucket.exercise_ok.mp ran
  rfl

theorem PutChange.terms {now : Nat} {buckets : ι → PutBucket ι} {i : ι} {next : PutBucket ι}
    {live retired after gone : List Range} (changed : PutChange now buckets i live retired next after gone) :
    next.terms = (buckets i).terms := by
  cases changed with
  | idle same => rfl
  | write wrote => obtain ⟨_, _, _, _, _, _, rfl⟩ := PutBucket.writeAndCheck_ok.mp wrote; rfl
  | exercise exercised => exact PutBucket.exercise_terms exercised
  | redeem taken redeemed => obtain ⟨_, _, _, _, _, _, _, rfl⟩ := PutBucket.redeemPosition_ok redeemed; rfl
  | burn supply expired => rfl
  | flag value => rfl
  | closeOffset taken closed =>
    obtain ⟨_, _, _, _, _, _, _, _, _, _, _, rfl⟩ := PutBucket.closeOffset_ok closed; rfl
  | destroy taken empty => rfl
  | writeSpread _ wrote => obtain ⟨_, _, _, _, _, _, _, _, _, rfl⟩ := PutBucket.writeSpread_ok wrote; rfl
  | exerciseSpread _ exercised =>
    obtain ⟨_, _, _, _, _, _, _, _, _, _, _, _, _, _, _, _, _, _, _, _, _, _, _, rfl⟩ :=
      PutBucket.exerciseSpread_ok.mp exercised
    rfl
  | closeSpread taken closed => obtain ⟨_, _, _, _, _, _, rfl⟩ := PutBucket.closeSpread_ok closed; rfl
  | redeemSpread taken redeemed => obtain ⟨_, _, _, _, rfl⟩ := PutBucket.redeemSpreadPosition_ok redeemed; rfl

end Changes

section Runs

variable [DecidableEq ι] {now : Nat} {live after plain retired gone : List Range}

def PutBucket.Held (now : Nat) (b : PutBucket ι) (live retired : List Range) : Prop :=
  ∃ plain, live.Perm (plain ++ b.spreads) ∧ b.Backed now plain retired

theorem PutChange.held {buckets : ι → PutBucket ι} {i : ι} {next : PutBucket ι}
    (changed : PutChange now buckets i live retired next after gone)
    (held : (buckets i).Held now live retired) : next.Held now after gone := by
  obtain ⟨plain, parts, backed⟩ := held
  cases changed with
  | idle same => exact ⟨plain, same.symm.trans parts, backed⟩
  | @write _ _ range _ wrote =>
    refine ⟨range :: plain, ?_, backed.write wrote⟩
    obtain ⟨_, _, _, _, _, _, rfl⟩ := PutBucket.writeAndCheck_ok.mp wrote
    exact parts.cons range
  | exercise exercised =>
    obtain ⟨kept, spreads⟩ := backed.exercise exercised
    exact ⟨plain, by rw [spreads]; exact parts, kept⟩
  | redeem taken redeemed =>
    obtain ⟨_, _, clear, _, _, _, _, unchanged⟩ := PutBucket.redeemPosition_ok redeemed
    have other := not_spread_of_clear backed.sound.spreadsOrdered clear (Or.inr rfl)
    obtain ⟨rest, split, left⟩ := single_out parts taken other
    exact ⟨rest, by rw [unchanged]; exact left, (backed.perm split).redeem redeemed⟩
  | burn supply expired => exact ⟨plain, parts, backed.burnExpired expired supply⟩
  | flag value => exact ⟨plain, parts, backed.invalidated value⟩
  | closeOffset taken closed =>
    obtain ⟨_, positive, _, inside, _, clear, _, _, _, _, _, unchanged⟩ := PutBucket.closeOffset_ok closed
    have other := not_spread_of_clear backed.sound.spreadsOrdered clear (by omega)
    obtain ⟨rest, split, left⟩ := single_out parts taken other
    exact ⟨_ :: rest, by rw [unchanged]; exact left.cons _, (backed.perm split).closeOffset closed⟩
  | @destroy range _ taken empty =>
    have other : range ∉ (buckets i).spreads := by
      intro member
      have := backed.sound.spreadsOrdered.nonempty range member
      omega
    obtain ⟨rest, split, left⟩ := single_out parts taken other
    exact ⟨rest, left, (backed.perm split).dropEmpty empty⟩
  | writeSpread _ wrote =>
    obtain ⟨kept, spreads⟩ := backed.writeSpread wrote
    refine ⟨plain, ?_, kept⟩
    rw [spreads, ← List.append_assoc]
    exact (parts.cons _).trans (List.perm_append_singleton _ _).symm
  | exerciseSpread _ exercised =>
    obtain ⟨kept, spreads⟩ := backed.exerciseSpread exercised
    exact ⟨plain, by rw [spreads]; exact parts, kept⟩
  | closeSpread taken closed =>
    obtain ⟨kept, split⟩ := backed.closeSpread closed
    have whole := taken.symm.trans (parts.trans ((split.append_left plain).trans List.perm_middle))
    exact ⟨plain, whole.cons_inv, kept⟩
  | redeemSpread taken redeemed =>
    obtain ⟨kept, split⟩ := backed.redeemSpread redeemed
    have whole := taken.symm.trans (parts.trans ((split.append_left plain).trans List.perm_middle))
    exact ⟨plain, whole.cons_inv, kept⟩

omit [DecidableEq ι] in
theorem PutBucket.Backed.create (now : Nat) (terms : Terms) :
    (PutBucket.create terms : PutBucket ι).Backed now [] [] where
  sound := ⟨by simp [PutBucket.create, Bucket.create], Separated.nil, by simp [PutBucket.create, Bucket.create], rfl,
    Ordered.nil, le_refl _⟩
  proper := by simp
  bounded := by simp [PutBucket.create, Bucket.create, u128Bound]
  escrowed := ⟨by simp [PutBucket.create, Bucket.create], by simp [PutBucket.create, Bucket.create]⟩
  behind := fun _ => Behind.nil _
  supply := fun _ => rfl
  underlying := rfl
  collateral := by simp [PutBucket.create, Bucket.create]

/-- Every state of every run is made of backed buckets with the terms they were created with. -/
structure PutSystem.Held (terms : ι → Terms) (s : PutSystem ι) : Prop where
  bucket : ∀ i, (s.buckets i).Held s.now (s.ranges i) (s.retired i)
  terms : ∀ i, (s.buckets i).terms = terms i

theorem PutSystem.Held.step {terms : ι → Terms} {s next : PutSystem ι} {op : PutOp ι} (held : s.Held terms)
    (stepped : putStep s op = .ok next) : next.Held terms where
  bucket := by
    intro i
    have moved := putStep_move stepped
    obtain ⟨plain, parts, backed⟩ := (moved.change i).held (held.bucket i)
    exact ⟨plain, parts, backed.later moved.now_le⟩
  terms := fun i => by rw [((putStep_move stepped).change i).terms, held.terms]

theorem PutSystem.Held.create (now : Nat) (terms : ι → Terms) : (PutSystem.create now terms).Held terms where
  bucket := fun i => ⟨[], List.Perm.refl _, PutBucket.Backed.create now (terms i)⟩
  terms := fun _ => rfl

theorem PutSystem.held_of_run {terms : ι → Terms} {ops : List (PutOp ι)} {s : PutSystem ι}
    (ran : exec putStep (PutSystem.create now terms) ops = .ok s) : s.Held terms :=
  exec_invariant putStep (PutSystem.Held terms) (fun _ _ _ held stepped => held.step stepped)
    (PutSystem.Held.create now terms) ran

end Runs

end SuiOptions.Core
