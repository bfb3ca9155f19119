import SuiOptions.Core.Bucket

/-! The invariant of the call buckets, over every run.

`Bucket.Backed` is the invariant of one bucket; each function of the module is
shown to keep it. `CallChange` lists what one transaction can do to a bucket,
its live ranges and its retired ones, so that the step lemma and every further
invariant of the call side is a case analysis over it.
-/

set_option autoImplicit false

namespace SuiOptions.Core

open Execution Move Ranges

variable {ι : Type}

structure Bucket.Backed (now : Nat) (b : Bucket ι) (plain retired : List Range) : Prop where
  sound : Sound b.toQueue (plain ++ retired)
  proper : ∀ r ∈ plain, r.start ≤ r.stop
  bounded : b.totalWritten < u128Bound
  spreadsAhead : ∀ s ∈ b.spreads, b.exerciseCursor ≤ s.start
  escrowed : Escrowed b.spreads b.escrows Range.size
  behind : now < b.expiryMs → Behind retired b.exerciseCursor
  supply : now < b.expiryMs → b.supply + b.exerciseCursor + b.closedPending = b.totalWritten
  underlying : b.underlyingBalance = within plain b.exerciseCursor b.totalWritten

theorem Queue.nextSpread_bounding {q : Queue} (sorted : Ordered q.spreads) :
    Bounding q.spreads q.nextSpread := by
  intro cur s member _
  cases listed : q.spreads with
  | nil => rw [listed] at member; cases member
  | cons first rest =>
    simp only [Queue.nextSpread, listed]
    rw [listed] at member sorted
    rcases List.mem_cons.mp member with same | member
    · rw [same]
    · have := (List.pairwise_cons.mp sorted.ascending).1 s member
      have := sorted.nonempty first (by simp)
      omega

namespace Bucket.Backed

variable {now amount payment cash start : Nat} {b next long longNext : Bucket ι}
  {plain rest retired : List Range} {r : Range}

theorem perm (backed : b.Backed now plain retired) (same : plain.Perm rest) : b.Backed now rest retired where
  sound := backed.sound.congr (fun point => by simp only [cover_append, cover_perm same])
  proper := fun r member => backed.proper r (same.mem_iff.mpr member)
  bounded := backed.bounded
  spreadsAhead := backed.spreadsAhead
  escrowed := backed.escrowed
  behind := backed.behind
  supply := backed.supply
  underlying := by rw [backed.underlying, within_perm same]

theorem later (backed : b.Backed now plain retired) {time : Nat} (passed : now ≤ time) :
    b.Backed time plain retired :=
  { backed with
    behind := fun live => backed.behind (by omega)
    supply := fun live => backed.supply (by omega) }

theorem invalidated (backed : b.Backed now plain retired) (flag : Bool) :
    Bucket.Backed now { b with invalidated := flag } plain retired :=
  ⟨backed.sound, backed.proper, backed.bounded, backed.spreadsAhead, backed.escrowed, backed.behind,
    backed.supply, backed.underlying⟩

theorem write (backed : b.Backed now plain retired) {range : Range}
    (ran : b.writeAndCheck now amount = .ok (range, next)) : next.Backed now (range :: plain) retired := by
  obtain ⟨live, _, small, _, rfl, rfl⟩ := writeAndCheck_ok.mp ran
  have supplied := backed.supply live
  have bound := backed.sound.cursorBound
  refine ⟨backed.sound.extend amount, ?_, small, backed.spreadsAhead, backed.escrowed, backed.behind, ?_, ?_⟩
  · intro r member
    rcases List.mem_cons.mp member with same | member
    · rw [same]; exact Nat.le_add_right _ _
    · exact backed.proper r member
  · intro _
    simp only
    omega
  · have kept := backed.sound.within_extend amount
    have held := backed.underlying
    simp only [within_cons, Range.within]
    omega

theorem exercise (backed : b.Backed now plain retired) (ran : b.exercise now amount payment = .ok next) :
    next.Backed now plain (skippedRanges b.toQueue next.toQueue ++ retired) ∧
      within plain b.exerciseCursor next.exerciseCursor = amount ∧ b.exerciseCursor ≤ next.exerciseCursor ∧
      next.spreads = b.spreads := by
  obtain ⟨live, positive, _, _, capacity, enough, walked, advanced, _, rfl⟩ := Bucket.exercise_ok.mp ran
  obtain ⟨final, dropped, rfl, walk, _⟩ :=
    Queue.advanceCursor_walked backed.sound.ready (Queue.nextSpread_bounding backed.sound.spreadsOrdered) advanced
  have behind := backed.behind live
  have units := backed.sound.walked_units behind walk capacity
  have moved : final.cur = b.exerciseCursor + amount + size dropped := walk.cur_eq
  have pending : b.closedPending = final.pending + size dropped := walk.pending_eq
  have advancedSound := backed.sound.advance walk capacity
  have limit : final.cur ≤ b.totalWritten := advancedSound.cursorBound
  have forward : b.exerciseCursor ≤ final.cur := by omega
  rw [show skippedRanges b.toQueue (b.toQueue.withWalk final) = dropped from walk.skipped_eq]
  refine ⟨⟨?_, backed.proper, backed.bounded, ?_, backed.escrowed, ?_, ?_, ?_⟩, units, forward, rfl⟩
  · exact advancedSound.congr (fun point => by simp only [cover_append]; omega)
  · intro s member
    have proper := backed.sound.spreadsOrdered.nonempty s member
    have ahead := backed.spreadsAhead s member
    have beside := walk.beside member proper (by simp only [Queue.walk]; omega)
    simp only [Queue.walk] at beside
    simp only [Queue.withWalk]
    omega
  · intro _
    exact (behind_of_stop_le (fun r member => (walk.inside r member).2)).append (behind.mono forward)
  · intro _
    have supplied := backed.supply live
    simp only [Queue.withWalk]
    omega
  · have split := within_split plain forward limit
    have held := backed.underlying
    simp only [Queue.withWalk]
    omega

theorem burnExpired (backed : b.Backed now plain retired) (ran : b.burnExpiredOption now amount = .ok next) :
    next.Backed now plain retired := by
  obtain ⟨expired, rfl⟩ := burnExpiredOption_ok ran
  refine { backed with supply := ?_ }
  intro live
  simp only at live
  omega

/-- The units of a position the cursor has not passed are those it counts ahead of it. -/
theorem unexercised_eq (backed : b.Backed now (r :: rest) retired) :
    r.size - exercisedUnits b.exerciseCursor r = r.within b.exerciseCursor b.totalWritten := by
  have proper := backed.proper r (by simp)
  rcases Nat.eq_or_lt_of_le proper with empty | nonempty
  · simp only [Range.size, exercisedUnits, Range.within]
    split_ifs <;> omega
  · have bound := backed.sound.other_stop_le (by simp) nonempty
    simp only [Range.size, exercisedUnits, Range.within]
    split_ifs <;> omega

theorem exercised_eq (backed : b.Backed now (r :: rest) retired) :
    exercisedUnits b.exerciseCursor r = r.within 0 b.exerciseCursor := by
  have proper := backed.proper r (by simp)
  simp only [exercisedUnits, Range.within]
  split_ifs <;> omega

theorem writeSpread (backed : b.Backed now plain retired) {allowed : Bool} {longId : ι} {range : Range}
    (ran : b.writeSpread now allowed longId long amount cash = .ok (range, next)) :
    next.Backed now plain retired ∧ next.spreads = b.spreads ++ [range] := by
  obtain ⟨live, positive, _, _, _, small, _, rfl, free, rfl⟩ := writeSpread_ok ran
  have bound := backed.sound.cursorBound
  refine ⟨⟨backed.sound.extendSpread positive, backed.proper, small, ?_, ?_, backed.behind, ?_, ?_⟩, rfl⟩
  · intro s member
    rcases List.mem_append.mp member with member | member
    · exact backed.spreadsAhead s member
    · rw [List.mem_singleton.mp member]; exact bound
  · exact backed.escrowed.add free (by simp [Range.size])
  · intro _
    have supplied := backed.supply live
    simp only
    omega
  · rw [backed.underlying]
    exact (backed.sound.within_extend amount).symm

theorem dropEmpty (backed : b.Backed now (r :: rest) retired) (empty : r.start = r.stop) :
    b.Backed now rest retired where
  sound := by
    refine backed.sound.congr (fun point => ?_)
    have nothing := cover_empty empty.ge point
    simp only [cover_singleton] at nothing
    simp only [cover_append, cover_cons]
    omega
  proper := fun r member => backed.proper r (List.mem_cons_of_mem _ member)
  bounded := backed.bounded
  spreadsAhead := backed.spreadsAhead
  escrowed := backed.escrowed
  behind := backed.behind
  supply := backed.supply
  underlying := by
    have held := backed.underlying
    simp only [within_cons, Range.within] at held
    omega

variable [DecidableEq ι] {id longId : ι} {p q : Position ι} {escrow : SpreadEscrow ι}

theorem redeem (backed : b.Backed now (p.range :: rest) retired) (ran : b.redeemPosition now id p = .ok next) :
    next.Backed now rest (p.range :: retired) := by
  have ahead := backed.unexercised_eq
  obtain ⟨expired, _, _, owed, _, _, _, rfl⟩ := redeemPosition_ok ran
  refine ⟨?_, ?_, backed.bounded, backed.spreadsAhead, backed.escrowed, ?_, ?_, ?_⟩
  · exact backed.sound.congr (fun point => by simp only [cover_append, cover_cons]; omega)
  · exact fun r member => backed.proper r (List.mem_cons_of_mem _ member)
  · intro live
    simp only at live
    omega
  · intro live
    simp only at live
    omega
  · have held := backed.underlying
    simp only [within_cons] at held
    simp only
    omega

theorem closeOffset (backed : b.Backed now (p.range :: rest) retired)
    (ran : b.closeOffset now id p amount = .ok (q, next)) : next.Backed now (q.range :: rest) retired := by
  obtain ⟨live, positive, _, inside, unexercised, _, enough, rfl, rfl⟩ := closeOffset_ok ran
  have bound := backed.sound.other_stop_le (by simp) (by omega : p.range.start < p.range.stop)
  refine ⟨?_, ?_, backed.bounded, backed.spreadsAhead, backed.escrowed, backed.behind, ?_, ?_⟩
  · apply backed.sound.tombstone _ (by omega) unexercised
    intro point
    have cut : cover [p.range] point = _ :=
      (cover_cut (by omega : p.range.start ≤ p.range.stop - amount) (Nat.sub_le _ _) point).symm
    simp only [cover_append, cover_cons, cover_nil] at cut ⊢
    omega
  · intro r member
    rcases List.mem_cons.mp member with same | member
    · rw [same]; simp only; omega
    · exact backed.proper r (List.mem_cons_of_mem _ member)
  · intro _
    have supplied := backed.supply live
    simp only
    omega
  · have held := backed.underlying
    simp only [within_cons, Range.within] at held ⊢
    omega

theorem unwindShort (backed : b.Backed now plain retired) {s : Range} (member : s ∈ b.spreads)
    (ran : b.unwindSpread now longId long s.start = .ok (next, longNext)) :
    next.Backed now (s :: plain) retired ∧ b.spreads.Perm (s :: next.spreads) := by
  obtain ⟨_, escrow, found, held, _, _, rfl⟩ := unwindSpread_ok.mp ran
  cases (Queue.findSpread_of backed.sound.spreadsOrdered member).symm.trans found
  have ahead := backed.spreadsAhead s member
  have proper := backed.sound.spreadsOrdered.nonempty s member
  have limit := backed.sound.spread_stop_le member
  obtain ⟨_, listed, long⟩ := backed.escrowed.held s member
  cases held.symm.trans listed
  refine ⟨⟨?_, ?_, backed.bounded, ?_, ?_, backed.behind, backed.supply, ?_⟩,
    eraseP_start backed.sound.spreadsOrdered member⟩
  · exact backed.sound.releaseSpread member
  · intro r inside
    rcases List.mem_cons.mp inside with same | inside
    · rw [same]; omega
    · exact backed.proper r inside
  · exact fun r inside => backed.spreadsAhead r (List.mem_of_mem_eraseP inside)
  · exact backed.escrowed.remove backed.sound.spreadsOrdered member
  · have pool := backed.underlying
    simp only [Queue.removeSpread, within_cons, Range.within, Range.size] at long ⊢
    omega

theorem closeSpread (backed : b.Backed now plain retired)
    (ran : b.closeSpread now id p amount = .ok (escrow, next)) :
    next.Backed now plain retired ∧ b.spreads.Perm (p.range :: next.spreads) := by
  obtain ⟨live, _, member, rfl, enough, _, rfl⟩ := closeSpread_ok ran
  have ahead := backed.spreadsAhead _ member
  have proper := backed.sound.spreadsOrdered.nonempty _ member
  refine ⟨⟨?_, backed.proper, backed.bounded, ?_, ?_, backed.behind, ?_, backed.underlying⟩,
    eraseP_start backed.sound.spreadsOrdered member⟩
  · have released := backed.sound.releaseSpread member
    apply released.tombstone _ proper ahead
    intro point
    change cover (p.range :: (plain ++ retired)) point = cover (plain ++ retired) point + cover [p.range] point
    simp only [cover_cons, cover_nil]
    omega
  · exact fun r inside => backed.spreadsAhead r (List.mem_of_mem_eraseP inside)
  · exact backed.escrowed.remove backed.sound.spreadsOrdered member
  · intro _
    have supplied := backed.supply live
    simp only
    omega

theorem redeemSpread (backed : b.Backed now plain retired)
    (ran : b.redeemSpreadPosition now id p = .ok (escrow, next)) :
    next.Backed now plain (p.range :: retired) ∧ b.spreads.Perm (p.range :: next.spreads) := by
  obtain ⟨expired, _, member, _, rfl⟩ := redeemSpreadPosition_ok ran
  refine ⟨⟨?_, backed.proper, backed.bounded, ?_, ?_, ?_, ?_, backed.underlying⟩,
    eraseP_start backed.sound.spreadsOrdered member⟩
  · exact (backed.sound.releaseSpread member).congr
      (fun point => by simp only [cover_append, cover_cons]; omega)
  · exact fun r inside => backed.spreadsAhead r (List.mem_of_mem_eraseP inside)
  · exact backed.escrowed.remove backed.sound.spreadsOrdered member
  · intro live
    simp only at live
    omega
  · intro live
    simp only at live
    omega

end Bucket.Backed

section Changes

variable [DecidableEq ι]

/-- What one transaction can do to one of the buckets, its live ranges and its retired ones. -/
inductive CallChange (now : Nat) (buckets : ι → Bucket ι) (i : ι) (live retired : List Range) :
    Bucket ι → List Range → List Range → Prop where
  | idle {after : List Range} : live.Perm after → CallChange now buckets i live retired (buckets i) after retired
  | write {amount : Nat} {range : Range} {next : Bucket ι} :
      (buckets i).writeAndCheck now amount = .ok (range, next) →
      CallChange now buckets i live retired next (range :: live) retired
  | exercise {amount payment : Nat} {next : Bucket ι} : (buckets i).exercise now amount payment = .ok next →
      CallChange now buckets i live retired next live
        (skippedRanges (buckets i).toQueue next.toQueue ++ retired)
  | redeem {p : Position ι} {next : Bucket ι} {after : List Range} :
      live.Perm (p.range :: after) → (buckets i).redeemPosition now i p = .ok next →
      CallChange now buckets i live retired next after (p.range :: retired)
  | burn {amount : Nat} {next : Bucket ι} : (buckets i).burnExpiredOption now amount = .ok next →
      CallChange now buckets i live retired next live retired
  | flag (value : Bool) : CallChange now buckets i live retired { buckets i with invalidated := value } live retired
  | closeOffset {p q : Position ι} {amount : Nat} {next : Bucket ι} {after : List Range} :
      live.Perm (p.range :: after) → (buckets i).closeOffset now i p amount = .ok (q, next) →
      CallChange now buckets i live retired next (q.range :: after) retired
  | destroy {range : Range} {after : List Range} : live.Perm (range :: after) → range.start = range.stop →
      CallChange now buckets i live retired (buckets i) after retired
  | writeSpread {allowed : Bool} {j : ι} {next : Bucket ι} {amount cash : Nat} {range : Range} : i ≠ j →
      (buckets i).writeSpread now allowed j (buckets j) amount cash = .ok (range, next) →
      CallChange now buckets i live retired next (range :: live) retired
  | unwind {j : ι} {next longNext : Bucket ι} {start : Nat} :
      (buckets i).unwindSpread now j (buckets j) start = .ok (next, longNext) →
      CallChange now buckets i live retired next live retired
  | closeSpread {p : Position ι} {amount : Nat} {escrow : SpreadEscrow ι} {next : Bucket ι}
      {after : List Range} : live.Perm (p.range :: after) →
      (buckets i).closeSpread now i p amount = .ok (escrow, next) →
      CallChange now buckets i live retired next after retired
  | redeemSpread {p : Position ι} {escrow : SpreadEscrow ι} {next : Bucket ι} {after : List Range} :
      live.Perm (p.range :: after) → (buckets i).redeemSpreadPosition now i p = .ok (escrow, next) →
      CallChange now buckets i live retired next after (p.range :: retired)

theorem CallMove.now_le {s next : CallSystem ι} (moved : CallMove s next) : s.now ≤ next.now := by
  cases moved with
  | tick later => exact later
  | _ => exact le_refl _

abbrev CallSystem.Changed (s : CallSystem ι) (k : ι) : Bucket ι → List Range → List Range → Prop :=
  CallChange s.now s.buckets k (s.ranges k) (s.retired k)

/-- An unwind exercises the bucket of the long and takes a spread out of the other. -/
theorem unwound_changed {s : CallSystem ι} {i j : ι} {start : Nat} {b long : Bucket ι}
    (unwound : (s.buckets i).unwindSpread s.now j (s.buckets j) start = .ok (b, long)) (k : ι) :
    s.Changed k (Function.update (Function.update s.buckets i b) j long k) (s.ranges k)
      (Function.update s.retired j (skippedRanges (s.buckets j).toQueue long.toQueue ++ s.retired j) k) := by
  by_cases second : k = j
  · subst second
    rw [Function.update_self, Function.update_self]
    obtain ⟨_, escrow, _, _, _, exercised, _⟩ := Bucket.unwindSpread_ok.mp unwound
    exact .exercise exercised
  · rw [Function.update_of_ne second, Function.update_of_ne second]
    by_cases first : k = i
    · subst first
      rw [Function.update_self]
      exact .unwind unwound
    · rw [Function.update_of_ne first]
      exact .idle (List.Perm.refl _)

theorem CallMove.change {s next : CallSystem ι} (moved : CallMove s next) (k : ι) :
    s.Changed k (next.buckets k) (next.ranges k) (next.retired k) := by
  have idle : ∀ k after, (s.ranges k).Perm after → s.Changed k (s.buckets k) after (s.retired k) :=
    fun _ _ => .idle
  have same : ∀ {i : ι} (k : ι), k ≠ i → s.retired k = s.retired k := fun _ _ => rfl
  have more : ∀ {i : ι} {gone : List Range} (k : ι), k ≠ i →
      Function.update s.retired i (gone ++ s.retired i) k = s.retired k := fun _ => (Function.update_of_ne · _ _)
  cases moved with
  | tick later => exact idle k _ (List.Perm.refl _)
  | write wrote => exact System.add_each (P := s.Changed) idle (.write wrote) k
  | @exercise i amount payment b held exercised =>
    refine System.update_each (P := s.Changed) idle more ?_ k
    rw [Function.update_self]
    exact .exercise exercised
  | @redeem i p b member redeemed =>
    obtain ⟨_, own, _⟩ := Bucket.redeemPosition_ok redeemed
    refine System.drop_each (P := s.Changed) idle more member own (fun after parts => ?_) k
    rw [Function.update_self]
    exact .redeem parts redeemed
  | burn held burned => exact System.update_each (P := s.Changed) idle same (.burn burned) k
  | flag i value => exact System.update_each (P := s.Changed) idle same (.flag value) k
  | @closeOffset i p q amount b held member closed =>
    have parts := System.ranges_drop member k
    obtain ⟨_, _, own, _, _, _, _, shrunk, _⟩ := Bucket.closeOffset_ok closed
    have kept : q.bucketId = i := by rw [shrunk]
    change s.Changed k (Function.update s.buckets i b k)
      (((s.dropPosition p).addPosition q.bucketId q.range).ranges k) _
    rw [System.ranges_cons]
    by_cases here : k = i
    · subst here
      rw [if_pos own] at parts
      rw [Function.update_self, if_pos kept]
      exact .closeOffset parts closed
    · rw [own, if_neg (Ne.symm here)] at parts
      rw [Function.update_of_ne here, kept, if_neg (Ne.symm here)]
      exact .idle parts
  | @destroy p member empty =>
    have parts := System.ranges_drop member k
    change s.Changed k (s.buckets k) _ (s.retired k)
    by_cases own : p.bucketId = k
    · rw [if_pos own] at parts
      exact .destroy parts empty
    · rw [if_neg own] at parts
      exact .idle parts
  | writeSpread different held wrote => exact System.add_each (P := s.Changed) idle (.writeSpread different wrote) k
  | unwind different unwound => exact unwound_changed unwound k
  | @closeSpread i p amount escrow b held member closed =>
    obtain ⟨_, own, _⟩ := Bucket.closeSpread_ok closed
    exact System.drop_each (P := s.Changed) idle same member own (fun after parts => .closeSpread parts closed) k
  | @redeemSpread i p escrow b member redeemed =>
    obtain ⟨_, own, _⟩ := Bucket.redeemSpreadPosition_ok redeemed
    refine System.drop_each (P := s.Changed) idle more member own (fun after parts => ?_) k
    rw [Function.update_self]
    exact .redeemSpread parts redeemed

omit [DecidableEq ι] in
theorem Bucket.exercise_frame {now amount payment : Nat} {b after : Bucket ι}
    (ran : b.exercise now amount payment = .ok after) :
    after.spreads = b.spreads ∧ after.escrows = b.escrows ∧ amount ≤ b.supply ∧ after.supply = b.supply - amount := by
  obtain ⟨_, _, _, _, _, enough, walked, advanced, _, rfl⟩ := Bucket.exercise_ok.mp ran
  obtain ⟨_, _, advanced⟩ := bind_ok.mp advanced
  obtain ⟨_, _, advanced⟩ := bind_ok.mp advanced
  cases pure_ok.mp advanced
  exact ⟨rfl, rfl, enough, rfl⟩

omit [DecidableEq ι] in
theorem Bucket.exercise_terms {now amount payment : Nat} {b next : Bucket ι}
    (ran : b.exercise now amount payment = .ok next) : next.terms = b.terms := by
  obtain ⟨_, _, _, _, _, _, _, _, _, rfl⟩ := Bucket.exercise_ok.mp ran
  rfl

theorem CallChange.terms {now : Nat} {buckets : ι → Bucket ι} {i : ι} {next : Bucket ι}
    {live retired after gone : List Range} (changed : CallChange now buckets i live retired next after gone) :
    next.terms = (buckets i).terms := by
  cases changed with
  | idle same => rfl
  | write wrote => obtain ⟨_, _, _, _, _, rfl⟩ := Bucket.writeAndCheck_ok.mp wrote; rfl
  | exercise exercised => exact Bucket.exercise_terms exercised
  | redeem taken redeemed => obtain ⟨_, _, _, _, _, _, _, rfl⟩ := Bucket.redeemPosition_ok redeemed; rfl
  | burn burned => obtain ⟨_, rfl⟩ := Bucket.burnExpiredOption_ok burned; rfl
  | flag value => rfl
  | closeOffset taken closed => obtain ⟨_, _, _, _, _, _, _, _, rfl⟩ := Bucket.closeOffset_ok closed; rfl
  | destroy taken empty => rfl
  | writeSpread _ wrote => obtain ⟨_, _, _, _, _, _, _, _, _, rfl⟩ := Bucket.writeSpread_ok wrote; rfl
  | unwind unwound => obtain ⟨_, _, _, _, _, _, rfl⟩ := Bucket.unwindSpread_ok.mp unwound; rfl
  | closeSpread taken closed => obtain ⟨_, _, _, _, _, _, rfl⟩ := Bucket.closeSpread_ok closed; rfl
  | redeemSpread taken redeemed => obtain ⟨_, _, _, _, rfl⟩ := Bucket.redeemSpreadPosition_ok redeemed; rfl

theorem CallSystem.terms_of_run {now : Nat} {terms : ι → Terms} {ops : List (CallOp ι)} {s : CallSystem ι}
    (ran : exec callStep (CallSystem.create now terms) ops = .ok s) (i : ι) : (s.buckets i).terms = terms i := by
  refine exec_invariant callStep (fun s => (s.buckets i).terms = terms i) ?_ rfl ran
  intro s op next same stepped
  rw [((callStep_move stepped).change i).terms, same]

end Changes

section Runs

variable [DecidableEq ι]

/-- What one transaction can do to a bucket, its plain ranges and its retired ones. -/
inductive Bucket.Flow (now : Nat) (b : Bucket ι) (plain retired : List Range) :
    Bucket ι → List Range → List Range → Prop where
  | idle : Flow now b plain retired b plain retired
  | write {amount : Nat} {range : Range} {next : Bucket ι} :
      b.writeAndCheck now amount = .ok (range, next) → Flow now b plain retired next (range :: plain) retired
  | exercise {amount payment : Nat} {next : Bucket ι} : b.exercise now amount payment = .ok next →
      Flow now b plain retired next plain (skippedRanges b.toQueue next.toQueue ++ retired)
  | redeem {id : ι} {p : Position ι} {next : Bucket ι} {rest : List Range} :
      plain.Perm (p.range :: rest) → b.redeemPosition now id p = .ok next →
      Flow now b plain retired next rest (p.range :: retired)
  | burn {amount : Nat} {next : Bucket ι} : b.burnExpiredOption now amount = .ok next →
      Flow now b plain retired next plain retired
  | flag (value : Bool) : Flow now b plain retired { b with invalidated := value } plain retired
  | closeOffset {id : ι} {p q : Position ι} {amount : Nat} {next : Bucket ι} {rest : List Range} :
      plain.Perm (p.range :: rest) → b.closeOffset now id p amount = .ok (q, next) →
      Flow now b plain retired next (q.range :: rest) retired
  | destroy {range : Range} {rest : List Range} : plain.Perm (range :: rest) → range.start = range.stop →
      Flow now b plain retired b rest retired
  | writeSpread {allowed : Bool} {longId : ι} {long next : Bucket ι} {amount cash : Nat} {range : Range} :
      b.writeSpread now allowed longId long amount cash = .ok (range, next) →
      Flow now b plain retired next plain retired
  | unwind {longId : ι} {long next longNext : Bucket ι} {s : Range} : s ∈ b.spreads →
      b.unwindSpread now longId long s.start = .ok (next, longNext) →
      Flow now b plain retired next (s :: plain) retired
  | closeSpread {id : ι} {p : Position ι} {amount : Nat} {escrow : SpreadEscrow ι} {next : Bucket ι} :
      b.closeSpread now id p amount = .ok (escrow, next) → Flow now b plain retired next plain retired
  | redeemSpread {id : ι} {p : Position ι} {escrow : SpreadEscrow ι} {next : Bucket ι} :
      b.redeemSpreadPosition now id p = .ok (escrow, next) →
      Flow now b plain retired next plain (p.range :: retired)

variable {now : Nat} {b next : Bucket ι} {live after plain rest retired gone : List Range}

theorem Bucket.Backed.flow (backed : b.Backed now plain retired) (flowed : b.Flow now plain retired next rest gone) :
    next.Backed now rest gone := by
  cases flowed with
  | idle => exact backed
  | write wrote => exact backed.write wrote
  | exercise exercised => exact (backed.exercise exercised).1
  | redeem split redeemed => exact (backed.perm split).redeem redeemed
  | burn burned => exact backed.burnExpired burned
  | flag value => exact backed.invalidated value
  | closeOffset split closed => exact (backed.perm split).closeOffset closed
  | destroy split empty => exact (backed.perm split).dropEmpty empty
  | writeSpread wrote => exact (backed.writeSpread wrote).1
  | unwind member unwound => exact (backed.unwindShort member unwound).1
  | closeSpread closed => exact (backed.closeSpread closed).1
  | redeemSpread redeemed => exact (backed.redeemSpread redeemed).1

/-- A change of the live ranges is one of the plain ranges, the spreads being known. -/
theorem CallChange.flow {buckets : ι → Bucket ι} {i : ι}
    (changed : CallChange now buckets i live retired next after gone)
    (parts : live.Perm (plain ++ (buckets i).spreads)) (backed : (buckets i).Backed now plain retired) :
    ∃ rest, after.Perm (rest ++ next.spreads) ∧ (buckets i).Flow now plain retired next rest gone := by
  cases changed with
  | idle same => exact ⟨plain, same.symm.trans parts, .idle⟩
  | @write _ range _ wrote =>
    refine ⟨range :: plain, ?_, .write wrote⟩
    obtain ⟨_, _, _, _, _, rfl⟩ := Bucket.writeAndCheck_ok.mp wrote
    exact parts.cons range
  | exercise exercised =>
    obtain ⟨_, _, _, spreads⟩ := backed.exercise exercised
    exact ⟨plain, by rw [spreads]; exact parts, .exercise exercised⟩
  | redeem taken redeemed =>
    obtain ⟨_, _, clear, _, _, _, _, unchanged⟩ := Bucket.redeemPosition_ok redeemed
    -- a position that is redeemed is no spread
    have other := not_spread_of_clear backed.sound.spreadsOrdered clear (Or.inr rfl)
    obtain ⟨rest, split, left⟩ := single_out parts taken other
    exact ⟨rest, by rw [unchanged]; exact left, .redeem split redeemed⟩
  | burn burned =>
    refine ⟨plain, ?_, .burn burned⟩
    obtain ⟨_, rfl⟩ := Bucket.burnExpiredOption_ok burned
    exact parts
  | flag value => exact ⟨plain, parts, .flag value⟩
  | closeOffset taken closed =>
    obtain ⟨_, positive, _, inside, _, clear, _, _, unchanged⟩ := Bucket.closeOffset_ok closed
    -- nor is one that is closed
    have other := not_spread_of_clear backed.sound.spreadsOrdered clear (by omega)
    obtain ⟨rest, split, left⟩ := single_out parts taken other
    exact ⟨_ :: rest, by rw [unchanged]; exact left.cons _, .closeOffset split closed⟩
  | @destroy range _ taken empty =>
    -- an empty one is none either
    have other : range ∉ (buckets i).spreads := by
      intro member
      have := backed.sound.spreadsOrdered.nonempty range member
      omega
    obtain ⟨rest, split, left⟩ := single_out parts taken other
    exact ⟨rest, left, .destroy split empty⟩
  | writeSpread _ wrote =>
    obtain ⟨_, spreads⟩ := backed.writeSpread wrote
    refine ⟨plain, ?_, .writeSpread wrote⟩
    rw [spreads, ← List.append_assoc]
    exact (parts.cons _).trans (List.perm_append_singleton _ _).symm
  | unwind unwound =>
    obtain ⟨s, _, found, _⟩ := Bucket.unwindSpread_ok.mp unwound
    obtain ⟨member, rfl⟩ := Queue.findSpread_ok found
    obtain ⟨_, split⟩ := backed.unwindShort member unwound
    -- the range of the unwound spread becomes a plain one
    exact ⟨s :: plain, parts.trans ((split.append_left plain).trans List.perm_middle), .unwind member unwound⟩
  | closeSpread taken closed =>
    obtain ⟨_, split⟩ := backed.closeSpread closed
    -- the position and its spread leave together
    have whole := taken.symm.trans (parts.trans ((split.append_left plain).trans List.perm_middle))
    exact ⟨plain, whole.cons_inv, .closeSpread closed⟩
  | redeemSpread taken redeemed =>
    obtain ⟨_, split⟩ := backed.redeemSpread redeemed
    have whole := taken.symm.trans (parts.trans ((split.append_left plain).trans List.perm_middle))
    exact ⟨plain, whole.cons_inv, .redeemSpread redeemed⟩

/-- The live ranges of a bucket are its spreads and plain ranges, which back it
and have a further property. -/
def Bucket.Held (property : Bucket ι → List Range → Prop) (now : Nat) (b : Bucket ι) (live retired : List Range) :
    Prop :=
  ∃ plain, live.Perm (plain ++ b.spreads) ∧ b.Backed now plain retired ∧ property b plain

omit [DecidableEq ι] in
theorem Bucket.Backed.create (now : Nat) (terms : Terms) : (Bucket.create terms : Bucket ι).Backed now [] [] where
  sound := ⟨by simp [Bucket.create], Separated.nil, by simp [Bucket.create], rfl, Ordered.nil, le_refl _⟩
  proper := by simp
  bounded := by simp [Bucket.create, u128Bound]
  spreadsAhead := by simp [Bucket.create]
  escrowed := ⟨by simp [Bucket.create], by simp [Bucket.create]⟩
  behind := fun _ => Behind.nil _
  supply := fun _ => rfl
  underlying := rfl

/-- The invariant rule of the call side: what new buckets have, and every change
of a backed bucket keeps, every bucket of a reachable system has. -/
theorem CallSystem.held_of_run (property : Bucket ι → List Range → Prop)
    (initially : ∀ terms, property (Bucket.create terms) [])
    (kept : ∀ (now : Nat) (b next : Bucket ι) (plain rest retired gone : List Range),
      b.Backed now plain retired → b.Flow now plain retired next rest gone → property b plain →
        property next rest)
    {now : Nat} {terms : ι → Terms} {ops : List (CallOp ι)} {s : CallSystem ι}
    (ran : exec callStep (CallSystem.create now terms) ops = .ok s) (i : ι) :
    (s.buckets i).Held property s.now (s.ranges i) (s.retired i) := by
  refine exec_invariant callStep
    (fun s => (s.buckets i).Held property s.now (s.ranges i) (s.retired i)) ?_ ?_ ran
  · rintro s op next ⟨plain, parts, backed, holds⟩ stepped
    have moved := callStep_move stepped
    obtain ⟨rest, left, flowed⟩ := (moved.change i).flow parts backed
    exact ⟨rest, left, (backed.flow flowed).later moved.now_le, kept _ _ _ _ _ _ _ backed flowed holds⟩
  · exact ⟨[], List.Perm.refl _, Bucket.Backed.create now (terms i), initially (terms i)⟩

/-- The laws of a call bucket with the given live and retired ranges. -/
structure Bucket.CallLaws (now : Nat) (b : Bucket ι) (live retired : List Range) : Prop where
  closed_sorted : Separated b.closed
  closed_ahead : ∀ r ∈ b.closed, b.exerciseCursor ≤ r.start
  closed_size : size b.closed = b.closedPending
  spreads_sorted : Ordered b.spreads
  spreads_ahead : ∀ s ∈ b.spreads, b.exerciseCursor ≤ s.start
  spread_live : ∀ s ∈ b.spreads, live.count s = 1
  spread_escrow : Escrowed b.spreads b.escrows Range.size
  partition : ∀ point, cover live point + cover b.closed point + cover retired point =
    if point < b.totalWritten then 1 else 0
  supply_eq : now < b.expiryMs →
    b.exerciseCursor + b.closedPending ≤ b.totalWritten ∧
      b.supply = b.totalWritten - b.exerciseCursor - b.closedPending
  underlying_eq : b.underlyingBalance = within (plainRanges live b.spreads) b.exerciseCursor b.totalWritten

omit [DecidableEq ι] in
theorem Bucket.Backed.laws (backed : b.Backed now plain retired) (parts : live.Perm (plain ++ b.spreads)) :
    b.CallLaws now live retired := by
  have sound := backed.sound
  refine ⟨sound.closedSeparated, sound.closedAhead, sound.closedSize, sound.spreadsOrdered,
    backed.spreadsAhead, fun s member => sound.spread_count parts member, backed.escrowed, ?_, ?_, ?_⟩
  · intro point
    have total := sound.partition point
    have split := cover_perm parts point
    simp only [cover_append] at total split
    omega
  · intro before
    have := backed.supply before
    omega
  · rw [backed.underlying, within_perm (sound.plainRanges_perm parts)]

/-- In every reachable state of a system of call buckets, every bucket obeys the laws. -/
theorem call_bucket_laws {now : Nat} {terms : ι → Terms} {ops : List (CallOp ι)} {s : CallSystem ι}
    (ran : exec callStep (CallSystem.create now terms) ops = .ok s) (i : ι) :
    (s.buckets i).CallLaws s.now (s.ranges i) (s.retired i) := by
  obtain ⟨plain, parts, backed, _⟩ :=
    CallSystem.held_of_run (fun _ _ => True) (fun _ => trivial) (fun _ _ _ _ _ _ _ _ _ _ => trivial) ran i
  exact backed.laws parts

-- Two buckets, one backing the other: a plain write is closed in part, a spread
-- is written, a unit exercised, the spread unwound and the rest redeemed.
theorem call_bucket_laws_sample :
    ∃ s, exec callStep (CallSystem.create 0 (fun high : Bool => ⟨100, if high then 20 else 15, 1⟩))
        [.write false 10, .write true 4, .closeOffset true ⟨true, ⟨0, 4⟩⟩ 2,
          .writeSpread true true false 3 5, .exercise true 1 2, .unwindSpread true false 4,
          .exercise true 3 6, .tick 100, .redeemPosition true ⟨true, ⟨0, 2⟩⟩] = .ok s ∧
      ∀ i, (s.buckets i).CallLaws s.now (s.ranges i) (s.retired i) :=
  exists_ok (fun _ => true) rfl (fun _ ran _ => call_bucket_laws ran)

end Runs

end SuiOptions.Core
