import SuiOptions.Core.PutInvariant

/-! Solvency of the put buckets.

The invariant gives the laws of every reachable bucket. What the laws are for is
that no payout fails: an accepted exercise, close or redemption is only ever
refused before the bucket's balances are touched.
-/

set_option autoImplicit false

namespace SuiOptions.Core

open Execution Move Ranges

variable {ι : Type}

/-- A balance of the bucket is smaller than what is split from it. -/
def Short (why : Abort Error) : Prop := why = .code .notEnoughSettlement ∨ why = .code .notEnoughUnderlying

section Queue

variable {total : Nat} {nextSpread : Nat → Nat} {blocked : Error}

theorem flush_avoids (cur : Nat) (closed : List Range) (pending : Nat) : Avoids Short (flush cur closed pending) := by
  induction closed generalizing cur pending with
  | nil => exact Avoids.ok _ _
  | cons r rest ih =>
    simp only [flush]
    split
    · refine (sub_avoids (by simp [Short])).bind (fun _ _ => ?_)
      exact (sub_avoids (by simp [Short])).bind (fun _ _ => ih _ _)
    · exact Avoids.ok _ _

theorem advanceLoop_avoids (fine : ¬ Short (.code blocked)) (fuel remaining : Nat) (walk : Walk) :
    Avoids Short (advanceLoop total nextSpread blocked fuel remaining walk) := by
  induction fuel generalizing remaining walk with
  | zero =>
    intro why failed
    cases failed
    simp [Short]
  | succ fuel ih =>
    simp only [advanceLoop]
    split
    · exact Avoids.ok _ _
    · split
      · refine Avoids.bind ?_ (fun _ _ => ih _ _)
        refine (sub_avoids (by simp [Short])).bind (fun _ _ => ?_)
        exact (sub_avoids (by simp [Short])).bind (fun _ _ => Avoids.ok _ _)
      · refine Avoids.bind ?_ (fun _ _ => ih _ _)
        refine check_bind_avoids fine (fun _ => ?_)
        exact (sub_avoids (by simp [Short])).bind (fun _ _ => Avoids.ok _ _)

theorem Queue.advanceCursor_avoids (fine : ¬ Short (.code blocked)) (q : Queue) (amount : Nat) :
    Avoids Short (q.advanceCursor nextSpread blocked amount) := by
  refine (advanceLoop_avoids fine _ _ _).bind (fun _ _ => ?_)
  exact (flush_avoids _ _ _).bind (fun _ _ => Avoids.ok _ _)

end Queue

theorem applyStrikeFloor_avoids (amount strike strikeScale : Nat) :
    Avoids Short (applyStrikeFloor amount strike strikeScale) := by
  refine Avoids.bind ?_ (fun _ _ => (fit_avoids (by simp [Short])).bind (fun _ _ => fit_avoids (by simp [Short])))
  exact check_bind_avoids (by simp [Short]) (fun _ => Avoids.ok _ _)

theorem applyStrikeCeil_avoids (amount strike strikeScale : Nat) :
    Avoids Short (applyStrikeCeil amount strike strikeScale) := by
  refine Avoids.bind (check_bind_avoids (by simp [Short]) (fun _ => Avoids.ok _ _)) (fun _ _ => ?_)
  refine (fit_avoids (by simp [Short])).bind (fun _ _ => (fit_avoids (by simp [Short])).bind (fun _ _ => ?_))
  exact (sub_avoids (by simp [Short])).bind (fun _ _ => fit_avoids (by simp [Short]))

theorem Bucket.splitSettlement_avoids {b : Bucket ι} {amount : Nat} (funded : amount ≤ b.settlementBalance) :
    Avoids Short (b.splitSettlement amount) := by
  rw [Bucket.splitSettlement, check_of funded]
  exact Avoids.ok _ _

theorem Bucket.splitUnderlying_avoids {b : Bucket ι} {amount : Nat} (funded : amount ≤ b.underlyingBalance) :
    Avoids Short (b.splitUnderlying amount) := by
  rw [Bucket.splitUnderlying, check_of funded]
  exact Avoids.ok _ _

theorem Bucket.burn_avoids (b : Bucket ι) (amount : Nat) : Avoids Short (b.burn amount) :=
  check_bind_avoids (by simp [Short]) (fun _ => Avoids.ok _ _)

namespace PutBucket.Backed

variable {now : Nat} {b long : PutBucket ι} {plain retired : List Range}

theorem exercise_avoids (backed : b.Backed now plain retired) (amount delivery : Nat) :
    Avoids Short (b.exercise now amount delivery) := by
  refine check_bind_avoids (by simp [Short]) (fun live => check_bind_avoids (by simp [Short]) (fun _ => ?_))
  refine check_bind_avoids (by simp [Short]) (fun delivered => ?_)
  refine (fit_avoids (by simp [Short])).bind (fun _ first => ?_)
  obtain ⟨_, rfl⟩ := fit_ok.mp first
  refine (fit_avoids (by simp [Short])).bind (fun _ second => ?_)
  obtain ⟨_, rfl⟩ := fit_ok.mp second
  refine check_bind_avoids (by simp [Short]) (fun capacity => ?_)
  refine (Bucket.burn_avoids _ _).bind (fun _ burned => ?_)
  obtain ⟨_, rfl⟩ := Bucket.burn_ok.mp burned
  refine (Queue.advanceCursor_avoids (by simp [Short]) _ _).bind (fun walked advanced => ?_)
  refine (applyStrikeFloor_avoids _ _ _).bind (fun payout priced => ?_)
  -- Here the cursor has crossed that many plain units, and the cash covers them.
  have funded := (backed.covers (backed.advanced_units live capacity advanced) priced).1
  exact Avoids.bind (Bucket.splitSettlement_avoids funded) (fun _ _ => Avoids.ok _ _)

variable [DecidableEq ι] {id : ι} {p : Position ι}

theorem redeem_avoids (sorted : Ordered b.spreads)
    (held : p.bucketId = id → p.range ∉ b.spreads → ∃ rest, b.Backed now (p.range :: rest) retired) :
    Avoids Short (b.redeemPosition now id p) := by
  refine check_bind_avoids (by simp [Short]) (fun _ => check_bind_avoids (by simp [Short]) (fun own => ?_))
  refine check_bind_avoids (by simp [Short]) (fun clear => ?_)
  obtain ⟨rest, backed⟩ := held own (not_spread_of_clear sorted clear (Or.inr rfl))
  have ahead := backed.unexercised_eq
  have passed := backed.exercised_eq
  refine (sub_avoids (by simp [Short])).bind (fun _ whole => ?_)
  obtain ⟨_, rfl⟩ := sub_ok.mp whole
  refine (sub_avoids (by simp [Short])).bind (fun _ part => ?_)
  obtain ⟨_, rfl⟩ := sub_ok.mp part
  refine (fit_avoids (by simp [Short])).bind (fun _ _ => (fit_avoids (by simp [Short])).bind (fun _ cast => ?_))
  obtain ⟨_, rfl⟩ := fit_ok.mp cast
  refine (applyStrikeFloor_avoids _ _ _).bind (fun owed priced => ?_)
  have backing : exercisedUnits b.exerciseCursor p.range ≤ b.underlyingBalance := by
    have held := backed.underlying
    rw [within_cons] at held
    omega
  have funded : owed ≤ b.settlementBalance := by
    refine (backed.covers ?_ priced).1
    rw [within_cons]
    change p.range.size - exercisedUnits b.exerciseCursor p.range ≤ _
    omega
  refine (Bucket.splitUnderlying_avoids backing).bind (fun _ split => ?_)
  obtain ⟨_, rfl⟩ := Bucket.splitUnderlying_ok.mp split
  exact Avoids.bind (Bucket.splitSettlement_avoids funded) (fun _ _ => Avoids.ok _ _)

theorem closeOffset_avoids (sorted : Ordered b.spreads)
    (held : p.bucketId = id → p.range ∉ b.spreads → ∃ rest, b.Backed now (p.range :: rest) retired)
    (amount : Nat) : Avoids Short (b.closeOffset now id p amount) := by
  refine check_bind_avoids (by simp [Short]) (fun _ => check_bind_avoids (by simp [Short]) (fun positive => ?_))
  refine check_bind_avoids (by simp [Short]) (fun own => ?_)
  refine (sub_avoids (by simp [Short])).bind (fun _ whole => ?_)
  obtain ⟨_, rfl⟩ := sub_ok.mp whole
  refine check_bind_avoids (by simp [Short]) (fun inside => ?_)
  refine (sub_avoids (by simp [Short])).bind (fun _ cut => ?_)
  obtain ⟨_, rfl⟩ := sub_ok.mp cut
  refine check_bind_avoids (by simp [Short]) (fun unexercised => ?_)
  refine check_bind_avoids (by simp [Short]) (fun clear => ?_)
  obtain ⟨rest, backed⟩ := held own (not_spread_of_clear sorted clear (by omega))
  refine (Bucket.burn_avoids _ _).bind (fun _ burned => ?_)
  obtain ⟨_, rfl⟩ := Bucket.burn_ok.mp burned
  refine Avoids.bind ?_ (fun q inserted => ?_)
  · exact (sub_avoids (by simp [Short])).bind
      (fun _ _ => (fit_avoids (by simp [Short])).bind (fun _ _ => Avoids.ok _ _))
  refine (fit_avoids (by simp [Short])).bind (fun _ _ => ?_)
  refine (applyStrikeFloor_avoids _ _ _).bind (fun refund priced => ?_)
  have bound := backed.sound.other_stop_le (by simp) (by omega : p.range.start < p.range.stop)
  have funded : refund ≤ b.settlementBalance := by
    refine (backed.covers ?_ priced).1
    rw [within_cons]
    have own : amount ≤ p.range.within b.exerciseCursor b.totalWritten := by
      simp only [Range.within]
      omega
    omega
  exact Avoids.bind (Bucket.splitSettlement_avoids funded) (fun _ _ => Avoids.ok _ _)

theorem exerciseSpread_avoids (backed : long.Backed now plain retired) (b : PutBucket ι) (longId : ι)
    (amount delivery : Nat) : Avoids Short (b.exerciseSpread now longId long amount delivery) := by
  refine check_bind_avoids (by simp [Short]) (fun _ => check_bind_avoids (by simp [Short]) (fun _ => ?_))
  refine check_bind_avoids (by simp [Short]) (fun _ => check_bind_avoids (by simp [Short]) (fun _ => ?_))
  refine (need_avoids (by simp [Short])).bind (fun _ _ => (fit_avoids (by simp [Short])).bind (fun _ _ => ?_))
  refine check_bind_avoids (by simp [Short]) (fun _ => (Bucket.burn_avoids _ _).bind (fun _ _ => ?_))
  refine (sub_avoids (by simp [Short])).bind (fun _ _ => (fit_avoids (by simp [Short])).bind (fun _ _ => ?_))
  refine (need_avoids (by simp [Short])).bind (fun _ _ => ?_)
  refine check_bind_avoids (by simp [Short]) (fun _ => check_bind_avoids (by simp [Short]) (fun _ => ?_))
  refine (applyStrikeCeil_avoids _ _ _).bind (fun _ _ => (applyStrikeCeil_avoids _ _ _).bind (fun _ _ => ?_))
  refine (sub_avoids (by simp [Short])).bind (fun _ _ => (backed.exercise_avoids _ _).bind (fun _ _ => ?_))
  exact (flush_avoids _ _ _).bind (fun _ _ => Avoids.ok _ _)

end PutBucket.Backed

section Runs

variable [DecidableEq ι] {now : Nat} {terms : ι → Terms}

/-- The laws of a put bucket with the given live ranges. -/
structure PutBucket.PutLaws (now : Nat) (b : PutBucket ι) (live : List Range) : Prop where
  solvent : b.strike * within (plainRanges live b.spreads) b.exerciseCursor b.totalWritten ≤
    10 ^ b.strikeScale * b.settlementBalance
  underlying_eq : b.underlyingBalance = within (plainRanges live b.spreads) 0 b.exerciseCursor
  supply_eq : now < b.expiryMs →
    b.exerciseCursor + b.closedPending ≤ b.totalWritten ∧
      b.supply = b.totalWritten - b.exerciseCursor - b.closedPending
  closed_sorted : Separated b.closed
  closed_ahead : ∀ r ∈ b.closed, b.exerciseCursor ≤ r.start
  closed_size : size b.closed = b.closedPending
  spreads_sorted : Ordered b.spreads
  spread_live : ∀ s ∈ b.spreads, live.count s = 1
  spread_escrow : Escrowed b.spreads b.escrows (fun s => s.stop - max s.start (min b.exerciseCursor s.stop))

omit [DecidableEq ι] in
theorem PutBucket.Held.laws {b : PutBucket ι} {live retired : List Range} (held : b.Held now live retired) :
    b.PutLaws now live := by
  obtain ⟨plain, parts, backed⟩ := held
  have sound := backed.sound
  have same := sound.plainRanges_perm parts
  refine ⟨?_, ?_, ?_, sound.closedSeparated, sound.closedAhead, sound.closedSize, sound.spreadsOrdered,
    fun s member => sound.spread_count parts member, ?_⟩
  · rw [within_perm same]
    exact backed.collateral
  · rw [within_perm same]
    exact backed.underlying
  · intro before
    have := backed.supply before
    omega
  · refine backed.escrowed.congr (fun s member => ?_)
    have proper := sound.spreadsOrdered.nonempty s member
    simp only [unassigned, assignedEnd]
    split_ifs <;> omega

theorem PutSystem.Held.plain_of {s : PutSystem ι} (held : s.Held terms) {i : ι} {p : Position ι}
    (member : p ∈ s.positions) (own : p.bucketId = i) (other : p.range ∉ (s.buckets i).spreads) :
    ∃ rest, (s.buckets i).Backed s.now (p.range :: rest) (s.retired i) := by
  obtain ⟨plain, parts, backed⟩ := held.bucket i
  have listed : p.range ∈ s.ranges i := List.mem_map.mpr ⟨p, List.mem_filter.mpr ⟨member, by simpa using own⟩, rfl⟩
  obtain ⟨rest, split, _⟩ := single_out parts (List.perm_cons_erase listed) other
  exact ⟨rest, backed.perm split⟩

/-- In every reachable state of a system of put buckets every bucket obeys the
laws, and no exercise, close or redemption fails at a balance of a bucket. -/
theorem put_bucket_solvent {ops : List (PutOp ι)} {s : PutSystem ι}
    (ran : exec putStep (PutSystem.create now terms) ops = .ok s) (i : ι) :
    (s.buckets i).PutLaws s.now (s.ranges i) ∧
      (∀ amount delivery, Avoids Short (putStep s (.exercise i amount delivery))) ∧
      (∀ p amount, Avoids Short (putStep s (.closeOffset i p amount))) ∧
      (∀ p, Avoids Short (putStep s (.redeemPosition i p))) ∧
      ∀ j amount delivery, Avoids Short (putStep s (.exerciseSpread j i amount delivery)) := by
  have held := PutSystem.held_of_run ran
  have laws := (held.bucket i).laws
  obtain ⟨plain, parts, backed⟩ := held.bucket i
  refine ⟨laws, ?_, ?_, ?_, ?_⟩
  · intro amount delivery
    refine Avoids.bind (check_bind_avoids (by simp [Short]) (fun _ => Avoids.ok _ _)) (fun _ taken => ?_)
    obtain ⟨_, rfl⟩ := System.take_ok.mp taken
    exact (backed.exercise_avoids amount delivery).bind (fun _ _ => Avoids.ok _ _)
  · intro p amount
    refine Avoids.bind (check_bind_avoids (by simp [Short]) (fun _ => Avoids.ok _ _)) (fun _ taken => ?_)
    obtain ⟨_, rfl⟩ := System.take_ok.mp taken
    refine Avoids.bind (check_bind_avoids (by simp [Short]) (fun _ => Avoids.ok _ _)) (fun _ removed => ?_)
    obtain ⟨member, rfl⟩ := System.takePosition_ok.mp removed
    exact (PutBucket.Backed.closeOffset_avoids laws.spreads_sorted (fun own other => held.plain_of member own other)
      amount).bind (fun _ _ => Avoids.ok _ _)
  · intro p
    refine Avoids.bind (check_bind_avoids (by simp [Short]) (fun _ => Avoids.ok _ _)) (fun _ removed => ?_)
    obtain ⟨member, rfl⟩ := System.takePosition_ok.mp removed
    exact (PutBucket.Backed.redeem_avoids laws.spreads_sorted (fun own other => held.plain_of member own other)).bind
      (fun _ _ => Avoids.ok _ _)
  · intro j amount delivery
    refine check_bind_avoids (by simp [Short]) (fun _ => ?_)
    refine Avoids.bind (check_bind_avoids (by simp [Short]) (fun _ => Avoids.ok _ _)) (fun _ taken => ?_)
    obtain ⟨_, rfl⟩ := System.take_ok.mp taken
    exact (backed.exerciseSpread_avoids (s.buckets j) i amount delivery).bind (fun _ _ => Avoids.ok _ _)

-- A put spread over a lower strike: two plain units are written and one of them
-- closed, the cursor passes the other one and enters the spread, whose rest is closed.
theorem put_bucket_solvent_sample :
    ∃ s, exec putStep (PutSystem.create 0 (fun high : Bool => ⟨100, if high then 25 else 15, 1⟩))
        [.write false 15 10, .write true 5 2, .writeSpread true true false 4 5, .closeOffset true ⟨true, ⟨0, 2⟩⟩ 1,
          .exercise true 1 1, .exerciseSpread true false 3 3, .closeSpread true ⟨true, ⟨2, 6⟩⟩ 1, .tick 100,
          .redeemPosition true ⟨true, ⟨0, 1⟩⟩] = .ok s ∧
      ∀ i, (s.buckets i).PutLaws s.now (s.ranges i) :=
  exists_ok (fun _ => true) rfl (fun _ ran _ i => (put_bucket_solvent ran i).1)

end Runs

end SuiOptions.Core
